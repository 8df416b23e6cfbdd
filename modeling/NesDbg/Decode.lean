import NesDbg.Packet
import NesDbg.Hex

/-! `DbgPacket::CreateObjFromString`: the packet the raw debug console builds from the operator's text.

The nibble loop fills `pRawData = new BYTE[stringLen / 2]`; when it ran to the end of the string with
an even number of digits, `fromRawData` is the `switch (pRawData[0])`, which builds an Echo, CpuMemRd
or CpuMemWr packet from the buffer. The buffer is read through the heap: a byte the loop did not
write is whatever the heap held there. `createObjFromString_of_hexText` says that on a hex text of
some bytes the switch sees exactly those bytes; from it, `createObjFromString_roundTrip` gives every
packet of the three kinds back from any hex text of its wire bytes. -/

namespace NesDbg

/-- The code units of a string literal, as `_T("...")` gives them. -/
def tstr (s : String) : List TChar := s.toList.map fun c => UInt16.ofNat c.toNat

/-- The `switch (pRawData[0])` of `CreateObjFromString`: the packet built from the raw buffer. -/
def fromRawData (pRawData : Ptr) : Option DbgPacket :=
  if pRawData 0 = DbgPacketOpCode.echo.toByte then
    some (echoPacket (fun i => pRawData (3 + i)) (le16 (pRawData 1) (pRawData 2)))
  else if pRawData 0 = DbgPacketOpCode.cpuMemRd.toByte then
    some (cpuMemRdPacket (le16 (pRawData 1) (pRawData 2)) (le16 (pRawData 3) (pRawData 4)))
  else if pRawData 0 = DbgPacketOpCode.cpuMemWr.toByte then
    some (cpuMemWrPacket (le16 (pRawData 1) (pRawData 2)) (le16 (pRawData 3) (pRawData 4))
      (fun i => pRawData (5 + i)))
  else none

/-- `DbgPacket::CreateObjFromString(pString)`, where `heap` is what the bytes at and past
    `new BYTE[stringLen / 2]` hold before the loop; `none` is `NULL`. -/
def createObjFromString (heap : Ptr) (pString : List TChar) : Option DbgPacket :=
  let r := nibbleLoop (NibbleState.start heap) pString
  if r.2 = true ∧ r.1.nibbleIdx % 2 = 0 then fromRawData r.1.rawData else none

/-- `CreateObjFromString` is the switch over the buffer the loop fills, when the loop reads an even
    number of digits to the end of the string, and `NULL` otherwise. -/
theorem createObjFromString_eq (heap : Ptr) (s : List TChar) :
    createObjFromString heap s =
      if (scan s).2 = true ∧ (scan s).1.length % 2 = 0 then fromRawData (fill heap (scan s).1) else none := by
  simp only [createObjFromString, nibbleLoop_start, NibbleState.after]

/-- On a hex text of some bytes the switch sees exactly those bytes, laid over the heap. -/
theorem createObjFromString_of_hexText {heap : Ptr} {text : List TChar} {bytes : List UInt8}
    (h : HexText text bytes) : createObjFromString heap text = fromRawData (overlay bytes heap) := by
  rw [createObjFromString_eq, scan_of_hexText h, fill_nibbles]
  simp [length_nibbles]

/-! ### Round trip -/

theorem fromRawData_echo (heap p : Ptr) (n : UInt16) :
    fromRawData (overlay (echoPacket p n).wire heap) = some (echoPacket p n) := by
  simp only [wire_echoPacket, fromRawData, overlay, le16Bytes, List.cons_append, List.nil_append,
    List.getElem?_cons_zero, List.getElem?_cons_succ, Option.getD_some, le16_le16Bytes, ite_true]
  refine congrArg some (echoPacket_congr fun i hi => ?_)
  rw [Nat.add_comm, List.getElem?_cons_succ, List.getElem?_cons_succ, List.getElem?_cons_succ,
    getElem?_copy hi, Option.getD_some]

theorem fromRawData_cpuMemRd (heap : Ptr) (addr n : UInt16) :
    fromRawData (overlay (cpuMemRdPacket addr n).wire heap) = some (cpuMemRdPacket addr n) := by
  simp [wire_cpuMemRdPacket, fromRawData, overlay, le16Bytes, le16_le16Bytes, DbgPacketOpCode.toByte]

theorem fromRawData_cpuMemWr (heap p : Ptr) (addr n : UInt16) :
    fromRawData (overlay (cpuMemWrPacket addr n p).wire heap) = some (cpuMemWrPacket addr n p) := by
  simp only [wire_cpuMemWrPacket, fromRawData, overlay, le16Bytes, List.cons_append, List.nil_append,
    List.getElem?_cons_zero, List.getElem?_cons_succ, Option.getD_some, le16_le16Bytes]
  rw [if_neg (by decide), if_neg (by decide), if_pos trivial]
  refine congrArg some (memWrPacket_congr fun i hi => ?_)
  rw [Nat.add_comm, List.getElem?_cons_succ, List.getElem?_cons_succ, List.getElem?_cons_succ,
    List.getElem?_cons_succ, List.getElem?_cons_succ, getElem?_copy hi, Option.getD_some]

/-- Every packet of the three kinds the console decodes comes back whole from any hex text of its wire
    bytes (digits in either case, spaces anywhere), over any heap. -/
theorem createObjFromString_roundTrip (heap : Ptr) (text : List TChar) :
    (∀ (p : Ptr) (n : UInt16), HexText text (echoPacket p n).wire →
      createObjFromString heap text = some (echoPacket p n)) ∧
    (∀ addr n : UInt16, HexText text (cpuMemRdPacket addr n).wire →
      createObjFromString heap text = some (cpuMemRdPacket addr n)) ∧
    (∀ (addr n : UInt16) (p : Ptr), HexText text (cpuMemWrPacket addr n p).wire →
      createObjFromString heap text = some (cpuMemWrPacket addr n p)) :=
  ⟨fun p n h => (createObjFromString_of_hexText h).trans (fromRawData_echo heap p n),
    fun a n h => (createObjFromString_of_hexText h).trans (fromRawData_cpuMemRd heap a n),
    fun a n p h => (createObjFromString_of_hexText h).trans (fromRawData_cpuMemWr heap p a n)⟩

/-- The handshake's echo, the spec's CpuMemRd vector and a two-byte CpuMemWr, each typed as hex text. -/
theorem createObjFromString_vectors :
    HexText (tstr "00 04 00 4E 45 53 00") (echoPacket (fun i => [0x4E, 0x45, 0x53, 0].getD i 0) 4).wire ∧
      createObjFromString (fun _ => 0) (tstr "00 04 00 4E 45 53 00") =
        some (echoPacket (fun i => [0x4E, 0x45, 0x53, 0].getD i 0) 4) ∧
    HexText (tstr "01 00 80 10 00") (cpuMemRdPacket 0x8000 0x10).wire ∧
      createObjFromString (fun _ => 0) (tstr "01 00 80 10 00") = some (cpuMemRdPacket 0x8000 0x10) ∧
    HexText (tstr "02 00 02 02 00 a9 Ff") (cpuMemWrPacket 0x200 2 fun i => [0xA9, 0xFF].getD i 0).wire ∧
      createObjFromString (fun _ => 0) (tstr "02 00 02 02 00 a9 Ff") =
        some (cpuMemWrPacket 0x200 2 fun i => [0xA9, 0xFF].getD i 0) :=
  ⟨by decide, (createObjFromString_roundTrip _ _).1 _ _ (by decide),
    by decide, (createObjFromString_roundTrip _ _).2.1 _ _ (by decide),
    by decide, (createObjFromString_roundTrip _ _).2.2 _ _ _ (by decide)⟩

/-! ### Truncated text -/

/-- Text that stops short of its opcode's layout still gives a packet, read past the decoded bytes. For
    every heap, "00 05 00" spells the three bytes of an Echo whose count asks for eight, and gives an Echo
    of five bytes taken from the heap past them; "", with no byte at all, gives the switch over the heap
    itself, an Echo of no byte when the heap holds zeros. -/
theorem createObjFromString_truncated (heap : Ptr) :
    HexText (tstr "00 05 00") [0x00, 0x05, 0x00] ∧ frameLength [0x00, 0x05, 0x00] = some 8 ∧
      createObjFromString heap (tstr "00 05 00") = some (echoPacket (fun i => heap (3 + i)) 5) ∧
      createObjFromString heap (tstr "") = fromRawData heap ∧
      createObjFromString (fun _ => 0) (tstr "") = some (echoPacket (fun _ => 0) 0) := by
  have h : HexText (tstr "00 05 00") [0x00, 0x05, 0x00] := by decide
  have hp : (fun i => overlay [0x00, 0x05, 0x00] heap (3 + i)) = fun i => heap (3 + i) :=
    funext fun i => overlay_of_le heap (by simp)
  refine ⟨h, rfl, ?_, ?_, by decide⟩
  · rw [createObjFromString_of_hexText h]
    simp only [fromRawData, overlay_zero, List.headD_cons, hp]
    rfl
  · rw [createObjFromString_eq]
    rfl

/-! ### Writes into `pRawData` -/

/-- The `i`-th digit the loop reads is written at `pRawData[i / 2]`. -/
theorem nibbleLoop_writes (heap : Ptr) (s : List TChar) :
    (nibbleLoop (NibbleState.start heap) s).1.writes = (List.range (scan s).1.length).map (· / 2) := by
  rw [nibbleLoop_start]
  rfl

/-- On the text "0" the loop writes `pRawData[0]`, though `new BYTE[stringLen / 2]` made no byte; only
    after the loop does the odd count make the result `NULL`. -/
theorem createObjFromString_odd_overflow (heap : Ptr) :
    (nibbleLoop (NibbleState.start heap) (tstr "0")).1.writes = [0] ∧ (tstr "0").length / 2 = 0 ∧
      createObjFromString heap (tstr "0") = none := by
  refine ⟨by rw [nibbleLoop_writes]; rfl, rfl, ?_⟩
  rw [createObjFromString_eq]
  rfl

end NesDbg
