import NorbitDriver.Connection.Frame

/-!
# Segmentation of the stream

TCP may hand the bytes of a header to the driver in several pieces. The handler
does not look at the number of bytes it has received, so every piece is read as
a header of its own, filled up with zeros, and moves the place where the next
header is looked for.

`Delivery` is one way in which a whole stream is handed over. Handed over byte
by byte a stream dispatches nothing, because a single byte is never a preamble,
and every position of the stream can be reached in this way. Hence the driver
acts on whole headers only exactly for the streams in which no part of a header
is accepted; then no whole header is accepted either, because the header check
looks at the first 16 bytes, and nothing is dispatched at all.
-/

namespace NorbitDriver

open Bytes Transition

/-- The bytes behind a valid header hold a payload that is dispatched. -/
def Readable (header : CommonHeader) (rest : List UInt8) : Prop :=
  (dataSize header).toNat ≤ rest.length ∧
    Message.msgValid header (rest.take (dataSize header).toNat) = some true ∧
    (header.type = 2 → 28 ≤ (dataSize header).toNat)

/-- The header that is read from a window of the stream: the bytes received,
filled up with zeros. -/
def window (stream : List UInt8) (position bytes_transferred : ℕ) :
    CommonHeader :=
  Message.fromBoostArray
    (headerBuffer ((stream.drop position).take bytes_transferred))

/-- No 1 to 23 bytes of the stream, filled up with zeros, are a valid
header. -/
def Headerless (stream : List UInt8) : Prop :=
  ∀ position n, 0 < n → n < 24 → position + n ≤ stream.length →
    Message.headerValid (window stream position n) = false

namespace DataSocket

variable {β ω : Type*}

/-- The receive operations `rs` hand over the whole of a stream: they all
succeed, and after them the stream is used up or the handler of a further
operation does not come back. -/
def Delivery (cbs : Callbacks β ω) (s : DataSocket) (rs : List Receive)
    (os : List (DataAction β ω)) : Prop :=
  (∀ r ∈ rs, r.error = false) ∧
    ∃ s', (machine cbs).run s rs = some (s', os) ∧
      (s'.unread = [] ∨
        ∃ r, r.error = false ∧ r.Possible s' ∧ (machine cbs).step s' r = none)

/-- A header is acted on only when all its bytes have been received. -/
def ActsOnWholeHeaders (cbs : Callbacks β ω) (stream : List UInt8) : Prop :=
  ∀ (rs : List Receive) (s : DataSocket) (os : List (DataAction β ω))
    (r : Receive), (∀ r ∈ rs, r.error = false) →
    (machine cbs).run ⟨0, stream⟩ rs = some (s, os) →
    r.error = false → r.Possible s →
    Message.headerValid (Message.fromBoostArray
      (headerBuffer (s.unread.take r.bytes_transferred))) = true →
    r.bytes_transferred = 24

/-- The messages dispatched from a stream do not depend on the way TCP delivers
it. -/
def SegmentationFree (cbs : Callbacks β ω) (stream : List UInt8) : Prop :=
  (∀ rs rs' os os', Delivery cbs ⟨0, stream⟩ rs os →
    Delivery cbs ⟨0, stream⟩ rs' os' →
    (dispatched os).map Prod.snd = (dispatched os').map Prod.snd) ∧
  ActsOnWholeHeaders cbs stream

/-- The socket stands at its position in the stream. -/
def Within (stream : List UInt8) (s : DataSocket) : Prop :=
  s.position ≤ stream.length ∧ s.unread = stream.drop s.position

end DataSocket

/-- `processHdrMsg` dispatches a message exactly when it finds a valid header
in front of a readable payload. -/
theorem processHdrMsg_dispatches_iff (hdr unread : List UInt8) :
    (∃ m rest, processHdrMsg hdr unread = .ok (some m, rest)) ↔
      Message.headerValid (Message.fromBoostArray hdr) = true ∧
        Readable (Message.fromBoostArray hdr) unread := by
  simp only [processHdrMsg_eq_ok_iff, Readable]
  constructor
  · rintro ⟨m, rest, ⟨-, hnone, -⟩ | ⟨hvalid, hle, -, valid, m', hset, hm⟩⟩
    · exact absurd hnone (by simp)
    · have htrue : valid = true := by
        by_contra hfalse
        simp [hfalse] at hm
      subst htrue
      have hmsg := (Message.setBits_eq_some_true_iff hvalid _).mp ⟨m', hset⟩
      rw [List.length_take, Nat.min_eq_left hle] at hmsg
      exact ⟨hvalid, hle, hmsg⟩
  · rintro ⟨hvalid, hle, hmsg, hroom⟩
    have hlen : (unread.take
        (dataSize (Message.fromBoostArray hdr)).toNat).length =
        (dataSize (Message.fromBoostArray hdr)).toNat :=
      List.length_take_of_le hle
    obtain ⟨m, hset⟩ := (Message.setBits_eq_some_true_iff hvalid _).mpr
      ⟨hmsg, fun htype => by rw [hlen]; exact hroom htype⟩
    exact ⟨m, _, Or.inr ⟨hvalid, hle, rfl, true, m, hset, rfl⟩⟩

/-- A single byte is not a valid header: the preamble has four bytes. -/
theorem headerValid_singleton (b : UInt8) :
    Message.headerValid (Message.fromBoostArray (headerBuffer [b])) =
      false := by
  have hlen : (headerBuffer [b]).length = CommonHeader.layout.width := rfl
  have hread := CommonHeader.layout_preable.read_eq (headerBuffer [b]) hlen
  have hval : leVal (((headerBuffer [b]).drop 0).take 4) = b.toNat := by
    change leVal [b, 0, 0, 0] = b.toNat
    simp [leVal_cons]
  have hpre : (Message.fromBoostArray (headerBuffer [b])).preable =
      UInt32.ofNat b.toNat := by
    rw [Message.fromBoostArray, hread, ← hval]
    rfl
  have hb := b.toNat_lt
  have hne : UInt32.ofNat b.toNat ≠ CommonHeader.NORBIT_PREAMBLE_KEY := by
    intro heq
    have hnat := congrArg UInt32.toNat heq
    rw [UInt32.toNat_ofNat'] at hnat
    change b.toNat % 2 ^ 32 = 3735928559 at hnat
    omega
  rw [Message.headerValid, if_neg (by rw [hpre]; exact hne)]

/-- A word of a header that has been received completely. -/
theorem window_word {proj : CommonHeader → UInt32} {off : ℕ}
    (hat : CommonHeader.layout.At Layout.uint32 off proj)
    {stream : List UInt8} {p n : ℕ} (hoff : off + 4 ≤ n) (h24 : n ≤ 24)
    (hle : p + n ≤ stream.length) :
    proj (window stream p n) =
      Layout.uint32.read ((stream.drop (p + off)).take 4) := by
  have hn : ((stream.drop p).take n).length = n := by
    rw [List.length_take, List.length_drop]
    omega
  have hlen : (headerBuffer ((stream.drop p).take n)).length =
      CommonHeader.layout.width := by
    rw [headerBuffer, List.length_append, List.length_replicate, hn,
      CommonHeader.layout_width]
    omega
  have hdrop : off ≤ ((stream.drop p).take n).length := by omega
  have htake : 4 ≤ (((stream.drop p).take n).drop off).length := by
    rw [List.length_drop]
    omega
  rw [window, Message.fromBoostArray, hat.read_eq _ hlen, headerBuffer,
    List.drop_append_of_le_length hdrop, Layout.uint32_width,
    List.take_append_of_le_length htake, List.drop_take, List.drop_drop,
    List.take_take, Nat.min_eq_left (by omega)]

/-- The header check looks at the preamble, the type and the version, which are
complete after 16 bytes. -/
theorem headerValid_window_sixteen {stream : List UInt8} {p : ℕ}
    (hle : p + 24 ≤ stream.length) :
    Message.headerValid (window stream p 16) =
      Message.headerValid (window stream p 24) := by
  have hword : ∀ {proj : CommonHeader → UInt32} {off : ℕ},
      CommonHeader.layout.At Layout.uint32 off proj → off + 4 ≤ 16 →
        proj (window stream p 16) = proj (window stream p 24) := by
    intro proj off hat hoff
    rw [window_word hat hoff (by decide) (by omega),
      window_word hat (by omega) (by decide) hle]
  rw [Bool.eq_iff_iff, Message.headerValid_iff, Message.headerValid_iff,
    hword CommonHeader.layout_preable (by decide),
    hword CommonHeader.layout_type (by decide),
    hword CommonHeader.layout_version (by decide)]

/-- Where no part of a header is valid, no whole header is. -/
theorem Headerless.headerValid {stream : List UInt8} (h : Headerless stream)
    {p n : ℕ} (hpos : 0 < n) (h24 : n ≤ 24) (hle : p + n ≤ stream.length) :
    Message.headerValid (window stream p n) = false := by
  rcases Nat.lt_or_eq_of_le h24 with hlt | rfl
  · exact h p n hpos hlt hle
  · rw [← headerValid_window_sixteen hle]
    exact h p 16 (by decide) (by decide) (by omega)

/-- The bytes of a supported frame with a matching CRC are readable. -/
theorem Frame.Supported.readable {f : Frame} (hs : f.Supported)
    (hi : f.Intact) (hh : f.Headed) (rest : List UInt8) :
    Message.headerValid (window (f.bytes ++ rest) 0 24) = true ∧
      Readable (window (f.bytes ++ rest) 0 24)
        ((f.bytes ++ rest).drop (0 + 24)) := by
  have hproc := Frame.processHdrMsg_eq hs (fun _ => hh) rest
  rw [if_pos hi] at hproc
  have hread := (processHdrMsg_dispatches_iff _ _).mp ⟨_, _, hproc⟩
  rw [window, List.drop_zero, f.take_bytes_append,
    headerBuffer_of_length f.header_length, Nat.zero_add, f.drop_bytes_append]
  exact hread

namespace DataSocket

variable {β ω : Type*}

/-- Every turn of the loop leaves the socket at a position of the stream. -/
theorem step_within (cbs : Callbacks β ω) {stream : List UInt8}
    {s s' : DataSocket} {r : Receive} {os : List (DataAction β ω)}
    (hs : s.Within stream) (h : (machine cbs).step s r = some (s', os)) :
    s'.Within stream := by
  obtain ⟨hle, hunread⟩ := hs
  obtain ⟨-, msg, rest, hproc, rfl, -⟩ := (machine_step_eq_some_iff cbs).mp h
  have hdrop : ∃ k, rest = s.unread.drop k := by
    rcases processHdrMsg_eq_ok_iff.mp hproc with
      ⟨-, -, hrest⟩ | ⟨-, -, hrest, -⟩
    · exact ⟨_, hrest⟩
    · exact ⟨_, by rw [hrest, List.drop_drop]⟩
  obtain ⟨k, rfl⟩ := hdrop
  rw [hunread, List.drop_drop, List.length_drop, List.length_drop]
  refine ⟨?_, ?_⟩
  · change s.position + (stream.length - s.position -
      (stream.length - (s.position + k))) ≤ stream.length
    omega
  · change stream.drop (s.position + k) = stream.drop (s.position +
      (stream.length - s.position - (stream.length - (s.position + k))))
    by_cases hk : s.position + k ≤ stream.length
    · congr 1
      omega
    · rw [List.drop_of_length_le (by omega), List.drop_of_length_le (by omega)]

theorem run_within (cbs : Callbacks β ω) {stream : List UInt8}
    {s : DataSocket} {rs : List Receive} {os : List (DataAction β ω)}
    (h : (machine cbs).run ⟨0, stream⟩ rs = some (s, os)) :
    s.Within stream :=
  (machine cbs).run_invariant (I := Within stream)
    (fun _ _ _ _ hs _ hstep => step_within cbs hs hstep)
    ⟨Nat.zero_le _, rfl⟩ ((machine cbs).meets_true _ rs) h

/-- An operation that transfers a single byte only moves the position. -/
theorem step_one (cbs : Callbacks β ω) (stream : List UInt8) {p : ℕ}
    (h : p < stream.length) :
    (machine cbs).step ⟨p, stream.drop p⟩ ⟨false, 1⟩ =
      some (⟨p + 1, stream.drop (p + 1)⟩, [.receiveStarted]) := by
  have htake : (stream.drop p).take 1 = [stream[p]] := by
    rw [List.drop_eq_getElem_cons h]
    rfl
  apply (machine_step_eq_some_iff cbs).mpr
  refine ⟨?_, none, stream.drop (p + 1), ?_, ?_, rfl⟩
  · simp only [Receive.Possible, List.length_drop]
    simp
    omega
  · change processHdrMsg (headerBuffer ((stream.drop p).take 1))
      ((stream.drop p).drop ((stream.drop p).take 1).length) = _
    rw [htake, processHdrMsg_of_not_headerValid (headerValid_singleton _),
      List.drop_drop]
    rfl
  · have hmove : stream.length - p - (stream.length - (p + 1)) = 1 := by omega
    simp only [List.length_drop, hmove]

/-- Handed over byte by byte, a stretch of the stream dispatches nothing. -/
theorem run_ones (cbs : Callbacks β ω) (stream : List UInt8) {p n : ℕ}
    (h : p + n ≤ stream.length) :
    ∃ os, (machine cbs).run ⟨p, stream.drop p⟩
        (List.replicate n ⟨false, 1⟩) =
          some (⟨p + n, stream.drop (p + n)⟩, os) ∧ dispatched os = [] := by
  induction n generalizing p with
  | zero => exact ⟨[], rfl, rfl⟩
  | succ n ih =>
      obtain ⟨os, hrun, hnone⟩ := ih (p := p + 1) (by omega)
      have hstep := step_one cbs stream (p := p) (by omega)
      refine ⟨[.receiveStarted] ++ os, ?_, ?_⟩
      · rw [List.replicate_succ, Nat.add_comm n 1, ← Nat.add_assoc]
        exact (machine cbs).run_cons_eq_some_iff.mpr
          ⟨_, _, _, hstep, hrun, rfl⟩
      · rw [dispatched_append, hnone]
        rfl

/-- From every position the rest of the stream can be handed over without a
further message. -/
theorem delivery_ones (cbs : Callbacks β ω) (stream : List UInt8) {p : ℕ}
    (h : p ≤ stream.length) :
    ∃ rs os, Delivery cbs ⟨p, stream.drop p⟩ rs os ∧ dispatched os = [] := by
  obtain ⟨os, hrun, hnone⟩ :=
    run_ones cbs stream (p := p) (n := stream.length - p)
      (by omega)
  refine ⟨_, os, ⟨?_, _, hrun, Or.inl ?_⟩, hnone⟩
  · intro r hr
    rw [List.eq_of_mem_replicate hr]
  · exact List.drop_of_length_le (by omega)

/-- A run can be continued to a delivery of the whole stream. -/
theorem Delivery.of_run (cbs : Callbacks β ω) {s t : DataSocket}
    {rs ts : List Receive} {os ps : List (DataAction β ω)}
    (hrs : ∀ r ∈ rs, r.error = false)
    (hrun : (machine cbs).run s rs = some (t, os))
    (hrest : Delivery cbs t ts ps) : Delivery cbs s (rs ++ ts) (os ++ ps) := by
  obtain ⟨hts, s', htail, hend⟩ := hrest
  exact ⟨List.forall_mem_append.mpr ⟨hrs, hts⟩, s',
    (machine cbs).run_append_of_eq_some hrun htail, hend⟩

/-- Without a header in the stream no turn dispatches a message. -/
theorem step_headerless (cbs : Callbacks β ω) {stream : List UInt8}
    (h : Headerless stream) {s s' : DataSocket} {r : Receive}
    {os : List (DataAction β ω)} (hs : s.Within stream)
    (herr : r.error = false) (hstep : (machine cbs).step s r = some (s', os)) :
    dispatched os = [] := by
  obtain ⟨hle, hunread⟩ := hs
  obtain ⟨hposs, msg, rest, hproc, -, rfl⟩ :=
    (machine_step_eq_some_iff cbs).mp hstep
  simp only [Receive.Possible, herr] at hposs
  obtain ⟨hpos, h24, havail⟩ := hposs
  rw [hunread] at hproc
  rw [hunread, List.length_drop] at havail
  cases msg with
  | none => rfl
  | some m =>
      have hdisp := (processHdrMsg_dispatches_iff _ _).mp ⟨m, rest, hproc⟩
      have hnot := h.headerValid (p := s.position) hpos h24 (by omega)
      exact absurd hdisp.1 (Bool.eq_false_iff.mp hnot)

/-- Every position of the stream can be reached without dispatching
anything. -/
theorem exists_run_to (cbs : Callbacks β ω) (stream : List UInt8) {p : ℕ}
    (h : p ≤ stream.length) :
    ∃ rs os, (∀ r ∈ rs, r.error = false) ∧
      (machine cbs).run ⟨0, stream⟩ rs = some (⟨p, stream.drop p⟩, os) ∧
      dispatched os = [] := by
  obtain ⟨os, hrun, hnone⟩ :=
    run_ones cbs stream (p := 0) (n := p) (by omega)
  rw [Nat.zero_add] at hrun
  refine ⟨_, os, ?_, hrun, hnone⟩
  intro r hr
  rw [List.eq_of_mem_replicate hr]

/-- A receive operation of `n` available bytes is possible. -/
theorem possible_at {stream : List UInt8} {p n : ℕ} (hpos : 0 < n)
    (h24 : n ≤ 24) (hle : p + n ≤ stream.length) :
    (⟨false, n⟩ : Receive).Possible ⟨p, stream.drop p⟩ := by
  simp only [Receive.Possible, List.length_drop]
  simp
  omega

/-- A whole header in front of a readable payload is dispatched. -/
theorem step_readable (cbs : Callbacks β ω) {stream : List UInt8} {p : ℕ}
    (hle : p + 24 ≤ stream.length)
    (hvalid : Message.headerValid (window stream p 24) = true)
    (hreadable : Readable (window stream p 24) (stream.drop (p + 24))) :
    ∃ s' os m, (machine cbs).step ⟨p, stream.drop p⟩ ⟨false, 24⟩ =
        some (s', os) ∧ dispatched os = [(p, m)] := by
  have hlen : ((stream.drop p).take 24).length = 24 := by
    rw [List.length_take, List.length_drop]
    omega
  obtain ⟨m, rest, hproc⟩ :=
    (processHdrMsg_dispatches_iff (headerBuffer ((stream.drop p).take 24))
      (stream.drop (p + 24))).mpr ⟨hvalid, hreadable⟩
  refine ⟨_, _, m, (machine_step_eq_some_iff cbs).mpr
    ⟨possible_at (by omega) (by omega) hle, some m, rest, ?_, rfl, rfl⟩, ?_⟩
  · change processHdrMsg (headerBuffer ((stream.drop p).take 24))
      ((stream.drop p).drop ((stream.drop p).take 24).length) = _
    rw [hlen, List.drop_drop, hproc]
  · rw [dispatched_append, dispatched_processed]
    rfl

/-- A stream with a readable header can be handed over so that a message is
dispatched. -/
theorem exists_delivery_dispatching (cbs : Callbacks β ω)
    {stream : List UInt8} {p : ℕ} (hle : p + 24 ≤ stream.length)
    (hvalid : Message.headerValid (window stream p 24) = true)
    (hreadable : Readable (window stream p 24) (stream.drop (p + 24))) :
    ∃ rs os, Delivery cbs ⟨0, stream⟩ rs os ∧ dispatched os ≠ [] := by
  obtain ⟨rs, os, hrs, hrun, hnone⟩ :=
    exists_run_to cbs stream (p := p) (by omega)
  obtain ⟨s', ps, m, hstep, hps⟩ := step_readable cbs hle hvalid hreadable
  have hrun' : (machine cbs).run ⟨0, stream⟩ (rs ++ [⟨false, 24⟩]) =
      some (s', os ++ ps) :=
    (machine cbs).run_append_of_eq_some hrun
      (((machine cbs).run_singleton _ _).trans hstep)
  have hs' := run_within cbs hrun'
  obtain ⟨ts, qs, hrest, hqs⟩ := delivery_ones cbs stream hs'.1
  rw [← hs'.2] at hrest
  refine ⟨_, _, Delivery.of_run cbs ?_ hrun' hrest, ?_⟩
  · rw [List.forall_mem_append, List.forall_mem_singleton]
    exact ⟨hrs, rfl⟩
  · rw [dispatched_append, dispatched_append, hnone, hps, hqs]
    simp

/-- No delivery of a stream without headers dispatches a message. -/
theorem dispatched_of_headerless (cbs : Callbacks β ω)
    {stream : List UInt8} (h : Headerless stream) {rs : List Receive}
    {os : List (DataAction β ω)} (hd : Delivery cbs ⟨0, stream⟩ rs os) :
    dispatched os = [] := by
  obtain ⟨hrs, s', hrun, -⟩ := hd
  apply dispatched_eq_nil_iff.mpr
  exact (machine cbs).run_observes (I := Within stream)
    (fun s r t ps hs herr hstep =>
      ⟨step_within cbs hs hstep,
        dispatched_eq_nil_iff.mp (step_headerless cbs h hs herr hstep)⟩)
    ⟨Nat.zero_le _, rfl⟩ ((machine cbs).meets_of_forall hrs _) hrun

/-- The driver decodes a stream independently of its segmentation, and acts on
whole headers only, exactly when no part of a header in it is valid. -/
theorem segmentationFree_iff_headerless (cbs : Callbacks β ω)
    (stream : List UInt8) :
    SegmentationFree cbs stream ↔ Headerless stream := by
  constructor
  · rintro ⟨-, hwhole⟩ p n hpos hlt hle
    obtain ⟨rs, os, hrs, hrun, -⟩ :=
      exists_run_to cbs stream (p := p) (by omega)
    by_contra hvalid
    have hn : n = 24 :=
      hwhole rs _ os _ hrs hrun rfl
        (possible_at hpos (Nat.le_of_lt hlt) hle)
        ((Bool.not_eq_false _).mp hvalid)
    exact absurd hn (Nat.ne_of_lt hlt)
  · intro h
    refine ⟨?_, ?_⟩
    · intro rs rs' os os' hd hd'
      rw [dispatched_of_headerless cbs h hd, dispatched_of_headerless cbs h hd']
    · intro rs s os r hrs hrun herr hposs hvalid
      obtain ⟨hle, hunread⟩ := run_within cbs hrun
      simp only [Receive.Possible, herr] at hposs
      obtain ⟨hpos, h24, havail⟩ := hposs
      rw [hunread, List.length_drop] at havail
      rw [hunread] at hvalid
      have hnot := h.headerValid (p := s.position) hpos h24 (by omega)
      exact absurd hvalid (Bool.eq_false_iff.mp hnot)

/-- The frames of a stream with an intact supported frame in front depend on
its segmentation. -/
theorem not_segmentationFree_of_intact (cbs : Callbacks β ω) {f : Frame}
    (hs : f.Supported) (hi : f.Intact) (hh : f.Headed)
    {stream rest : List UInt8} (hstream : stream = f.bytes ++ rest) :
    ¬ SegmentationFree cbs stream := by
  subst hstream
  rintro ⟨hsame, -⟩
  obtain ⟨hvalid, hreadable⟩ := hs.readable hi hh rest
  have hle : 0 + 24 ≤ (f.bytes ++ rest).length := by
    rw [List.length_append, f.bytes_length]
    omega
  obtain ⟨rs, os, hdelivery, hsome⟩ :=
    exists_delivery_dispatching cbs hle hvalid hreadable
  obtain ⟨ts, ps, hdelivery', hnone⟩ :=
    delivery_ones cbs (f.bytes ++ rest) (p := 0) (Nat.zero_le _)
  have heq := hsame rs ts os ps hdelivery hdelivery'
  rw [hnone, List.map_nil, List.map_eq_nil_iff] at heq
  exact hsome heq

/-- A frame handed over with its header in one piece is dispatched, and lost
when it comes byte by byte. -/
theorem ping_not_segmentationFree :
    ¬ SegmentationFree (⟨[()], [()]⟩ : Callbacks Unit Unit)
      Frame.ping.bytes :=
  not_segmentationFree_of_intact _ Frame.ping_supported Frame.ping_intact
    Frame.ping_declared.headed (List.append_nil _).symm

end DataSocket

end NorbitDriver
