import NorbitDriver.Connection.Frame

/-!
# The payload of a frame

The length of a payload is computed twice from the size field of its header:
`processHdrMsg` narrows it to `unsigned int` for the buffer and the read, and
`msgValid` keeps it in `size_t` for the CRC. Neither looks at the size first,
and `headerValid` does not either, so the two are the length of the payload
exactly when the size covers the header.

A payload that has been damaged within four consecutive bytes never has the CRC
of the undamaged one, and no callback is invoked for it.
-/

namespace NorbitDriver

open Bytes

/-- The length that is read and the length that is checked are the same, and
both are `size - 24` without wrapping. -/
structure LengthsExact (header : CommonHeader) : Prop where
  agree : (dataSize header).toNat = (Message.crcSize header).toNat
  read : ((dataSize header).toNat : ℤ) = (header.size.toNat : ℤ) - 24
  checked : ((Message.crcSize header).toNat : ℤ) =
    (header.size.toNat : ℤ) - 24

/-- The payloads `b` and `b'` of the same length differ, and only within the
`n` bytes from position `i` on. -/
structure Damaged (i n : ℕ) (b b' : List UInt8) : Prop where
  length : b'.length = b.length
  ne : b' ≠ b
  front : b'.take i = b.take i
  back : b'.drop (i + n) = b.drop (i + n)

instance (i n : ℕ) (b b' : List UInt8) : Decidable (Damaged i n b b') :=
  decidable_of_iff (b'.length = b.length ∧ b' ≠ b ∧ b'.take i = b.take i ∧
      b'.drop (i + n) = b.drop (i + n))
    ⟨fun h => ⟨h.1, h.2.1, h.2.2.1, h.2.2.2⟩,
      fun h => ⟨h.length, h.ne, h.front, h.back⟩⟩

/-- The length of the CRC wraps around when the size does not cover the
header. -/
theorem crcSize_toNat_of_lt {header : CommonHeader}
    (h : header.size.toNat < 24) :
    (Message.crcSize header).toNat = header.size.toNat + (2 ^ 64 - 24) := by
  rw [Message.crcSize, UInt64.toNat_sub, UInt32.toNat_toUInt64]
  change (2 ^ 64 - 24 + header.size.toNat) % 2 ^ 64 = _
  rw [Nat.mod_eq_of_lt (by omega), Nat.add_comm]

/-- No frame with such a size is read: either the narrowed length is waited for
or the CRC runs behind the payload. -/
theorem processHdrMsg_error_of_lt {hdr unread : List UInt8}
    (hvalid : Message.headerValid (Message.fromBoostArray hdr) = true)
    (hsize : (Message.fromBoostArray hdr).size.toNat < 24)
    (hunread : unread.length < 2 ^ 64 - 24) :
    ∃ fault, processHdrMsg hdr unread = .error fault := by
  have hcrc := crcSize_toNat_of_lt hsize
  have hset : ∀ bits : List UInt8, bits.length ≤ unread.length →
      Message.setBits (Message.fromBoostArray hdr) bits = none := by
    intro bits hbits
    have hshort : ¬ (Message.crcSize (Message.fromBoostArray hdr)).toNat ≤
        bits.length := by omega
    simp [Message.setBits, Message.msgValid, hshort]
  simp only [processHdrMsg, hvalid, if_true]
  by_cases hle :
      (dataSize (Message.fromBoostArray hdr)).toNat ≤ unread.length
  · rw [if_pos hle, hset _ (List.length_take_le' _ _)]
    exact ⟨_, rfl⟩
  · rw [if_neg hle]
    exact ⟨_, rfl⟩

/-- The two lengths are right for exactly the sizes that cover the header. -/
theorem lengthsExact_iff (header : CommonHeader) :
    LengthsExact header ↔ 24 ≤ header.size.toNat := by
  constructor
  · intro h
    have hnonneg := h.read
    omega
  · intro h
    have hread := dataSize_toNat h
    have hchecked := Message.crcSize_toNat h
    refine ⟨hread.trans hchecked.symm, ?_, ?_⟩
    · rw [hread, Nat.cast_sub h]
      rfl
    · rw [hchecked, Nat.cast_sub h]
      rfl

/-- A valid header whose size does not cover it. -/
def sizeless : CommonHeader :=
  Message.fromBoostArray [0xEF, 0xBE, 0xAD, 0xDE, 1, 0, 0, 0, 0, 0, 0, 0,
    8, 0, 0, 0, 0, 0, 0, 0, 0, 0, 0, 0]

/-- The size field is not checked. -/
theorem sizeless_not_lengthsExact :
    Message.headerValid sizeless = true ∧ ¬ LengthsExact sizeless := by
  refine ⟨by decide, fun h => ?_⟩
  have hsize : sizeless.size.toNat = 0 := by decide
  have hread := h.read
  rw [hsize] at hread
  omega

/-- A payload and a damaged copy of it, cut at the damage. -/
theorem Damaged.exists_split {i n : ℕ} {b b' : List UInt8}
    (h : Damaged i n b b') :
    ∃ front bs cs back, b = front ++ bs ++ back ∧ b' = front ++ cs ++ back ∧
      bs.length = cs.length ∧ bs.length ≤ n ∧ bs ≠ cs := by
  have hcut : ∀ l : List UInt8,
      l = l.take i ++ (l.drop i).take n ++ l.drop (i + n) := by
    intro l
    rw [← List.drop_drop, List.append_assoc, List.take_append_drop,
      List.take_append_drop]
  refine ⟨b.take i, (b.drop i).take n, (b'.drop i).take n, b.drop (i + n),
    hcut b, ?_, ?_, List.length_take_le _ _, fun heq => h.ne ?_⟩
  · rw [← h.front, ← h.back]
    exact hcut b'
  · rw [List.length_take, List.length_take, List.length_drop,
      List.length_drop, h.length]
  · rw [hcut b', h.front, h.back, ← heq, ← hcut b]

/-- A damaged payload fails the CRC that the undamaged one has passed. -/
theorem msgValid_of_damaged {header : CommonHeader} {b b' : List UInt8}
    {i : ℕ} (hsize : 24 ≤ header.size.toNat)
    (hlen : b.length = header.size.toNat - 24)
    (hb : Message.msgValid header b = some true) (hd : Damaged i 4 b b') :
    Message.msgValid header b' = some false := by
  have hcrc : (Message.crcSize header).toNat = b.length :=
    (Message.crcSize_toNat hsize).trans hlen.symm
  have hcrc' : (Message.crcSize header).toNat = b'.length :=
    hcrc.trans hd.length.symm
  obtain ⟨front, bs, cs, back, hsplit, hsplit', hlength, hfit, hne⟩ :=
    hd.exists_split
  have hdiffer : CRC.Calculate (front ++ bs ++ back) CRC.CRC_32 ≠
      CRC.Calculate (front ++ cs ++ back) CRC.CRC_32 :=
    CRC.Calculate_ne_of_burst hlength hfit hne
  rw [← hsplit, ← hsplit'] at hdiffer
  rw [Message.msgValid, hcrc, if_pos (Nat.le_refl _), List.take_length,
    Option.some.injEq, decide_eq_true_eq] at hb
  rw [Message.msgValid, hcrc', if_pos (Nat.le_refl _), List.take_length,
    Option.some.injEq, decide_eq_false_iff_not]
  intro hsame
  exact hdiffer (hb.trans hsame.symm)

/-- A payload that is damaged within four consecutive bytes is rejected, at
every position and for every length: `msgValid` and `setBits` are false, and
the handler takes the frame off the stream without invoking a callback. -/
theorem damage_rejected {β ω : Type*} {hdr b b' : List UInt8} {i : ℕ}
    (hhdr : hdr.length = 24)
    (hvalid : Message.headerValid (Message.fromBoostArray hdr) = true)
    (hsize : 24 ≤ (Message.fromBoostArray hdr).size.toNat)
    (hlen : b.length = (Message.fromBoostArray hdr).size.toNat - 24)
    (hb : Message.msgValid (Message.fromBoostArray hdr) b = some true)
    (hd : Damaged i 4 b b') :
    Message.msgValid (Message.fromBoostArray hdr) b' = some false ∧
      (∃ msg, Message.setBits (Message.fromBoostArray hdr) b' =
        some (false, msg)) ∧
      ∀ (cbs : Callbacks β ω) (position : ℕ) (rest : List UInt8),
        DataSocket.handler cbs ⟨position, hdr ++ (b' ++ rest)⟩ hdr =
          .ok (⟨position + (Message.fromBoostArray hdr).size.toNat, rest⟩,
            [.receiveStarted]) := by
  have hmsg := msgValid_of_damaged hsize hlen hb hd
  have hset := Message.setBits_of_not_msgValid hmsg
  have hread : (dataSize (Message.fromBoostArray hdr)).toNat = b'.length := by
    rw [dataSize_toNat hsize, hd.length, hlen]
  refine ⟨hmsg, ⟨_, hset⟩, fun cbs position rest => ?_⟩
  have hprocess : processHdrMsg hdr (b' ++ rest) = .ok (none, rest) := by
    apply processHdrMsg_eq_ok_iff.mpr
    refine Or.inr ⟨hvalid, ?_, ?_, false,
      { commonHeader := Message.fromBoostArray hdr, bits := b' }, ?_, rfl⟩
    · rw [hread, List.length_append]
      exact Nat.le_add_right _ _
    · rw [hread, List.drop_left]
    · rw [hread, List.take_left]
      exact hset
  have hposition : (hdr ++ (b' ++ rest)).length - rest.length =
      (Message.fromBoostArray hdr).size.toNat := by
    have hlength := hd.length
    rw [List.length_append, List.length_append]
    omega
  rw [DataSocket.handler, headerBuffer_of_length hhdr, List.drop_left,
    hprocess]
  dsimp only
  rw [hposition]
  rfl

/-- The payload of a frame with its last byte changed. -/
theorem damage_rejected_ping :
    Message.msgValid (Message.fromBoostArray Frame.ping.header)
        (List.replicate 111 0 ++ [1]) = some false ∧
      DataSocket.handler (⟨[()], []⟩ : Callbacks Unit Unit)
        ⟨0, Frame.ping.header ++ (List.replicate 111 0 ++ [1] ++ [])⟩
        Frame.ping.header = .ok (⟨0 + 136, []⟩, [.receiveStarted]) := by
  have hmsg : Message.msgValid (Message.fromBoostArray Frame.ping.header)
      Frame.ping.payload = some true := by
    rw [← decide_eq_true Frame.ping_intact]
    exact Frame.ping.msgValid_eq
  have hdamaged : Damaged 108 4 Frame.ping.payload
      (List.replicate 111 0 ++ [1]) := by
    decide
  have hrejected := damage_rejected (β := Unit) (ω := Unit)
    Frame.ping.header_length (by decide) (by decide) (by decide) hmsg hdamaged
  exact ⟨hrejected.1, hrejected.2.2 ⟨[()], []⟩ 0 []⟩

end NorbitDriver
