import NesDbg.Word

/-! The debug packets (`dbgpacket.h`, `dbgpacket.cpp`).

A `DbgPacket` is its concrete class and the buffer `m_pData` that its constructor allocates and fills;
`SizeInBytes` and `ReturnBytesExpected` are virtual and read the class's count fields back from the
buffer, never from the constructor's arguments. Near-identical constructors share one body:
`memRdPacket` (CPU and PPU reads), `memWrPacket` (CPU and PPU writes) and `opOnlyPacket` (the
one-byte packets).

`Construction` is one call of a constructor with its arguments, and `Construction.fields` its argument
bytes in the order of the opcode table of the spec (§3). `construction_layout` says that every
constructor lays its packet out as that table says, that `SizeInBytes` is the length of the buffer
and the length a receiver frames from the opcode byte and count field alone, and that
`ReturnBytesExpected` is the table's response length. -/

namespace NesDbg

/-- `DbgPacketOpCode`: the first byte of every packet. -/
inductive DbgPacketOpCode
  | echo | cpuMemRd | cpuMemWr | dbgHlt | dbgRun | cpuRegRd | cpuRegWr | queryHlt | queryErrCode
  | ppuMemRd | ppuMemWr | ppuDisable | cartSetCfg
deriving DecidableEq, Repr

namespace DbgPacketOpCode

def toByte : DbgPacketOpCode → UInt8
  | echo => 0x00 | cpuMemRd => 0x01 | cpuMemWr => 0x02 | dbgHlt => 0x03 | dbgRun => 0x04
  | cpuRegRd => 0x05 | cpuRegWr => 0x06 | queryHlt => 0x07 | queryErrCode => 0x08
  | ppuMemRd => 0x09 | ppuMemWr => 0x0A | ppuDisable => 0x0B | cartSetCfg => 0x0C

/-- The opcode a byte names, if any. -/
def ofByte? (b : UInt8) : Option DbgPacketOpCode :=
  [echo, cpuMemRd, cpuMemWr, dbgHlt, dbgRun, cpuRegRd, cpuRegWr, queryHlt, queryErrCode, ppuMemRd,
    ppuMemWr, ppuDisable, cartSetCfg].find? (·.toByte == b)

theorem ofByte?_toByte (op : DbgPacketOpCode) : ofByte? op.toByte = some op := by
  cases op <;> rfl

theorem ofByte?_eq_some {b : UInt8} {op : DbgPacketOpCode} : ofByte? b = some op ↔ op.toByte = b :=
  ⟨fun h => by simpa using List.find?_some h, fun h => h ▸ ofByte?_toByte op⟩

theorem toByte_inj {a b : DbgPacketOpCode} (h : a.toByte = b.toByte) : a = b :=
  Option.some.inj (by rw [← ofByte?_toByte a, h, ofByte?_toByte])

end DbgPacketOpCode

/-- A `CpuReg`. The enumerators are `0..6`; a `static_cast<CpuReg>` of a `UINT`, as the script callables
    make, holds any value. -/
structure CpuReg where
  val : Nat
deriving DecidableEq, Repr

namespace CpuReg

def pcl : CpuReg := ⟨0⟩
def pch : CpuReg := ⟨1⟩
def ac : CpuReg := ⟨2⟩
def x : CpuReg := ⟨3⟩
def y : CpuReg := ⟨4⟩
def p : CpuReg := ⟨5⟩
def s : CpuReg := ⟨6⟩

/-- `static_cast<BYTE>(reg)`. -/
def toByte (reg : CpuReg) : UInt8 := UInt8.ofNat reg.val

end CpuReg

/-- The concrete class of a `DbgPacket`. -/
inductive PacketClass
  | echo | cpuMemRd | cpuMemWr | dbgHlt | dbgRun | cpuRegRd | cpuRegWr | queryHlt
  | ppuMemRd | ppuMemWr | ppuDisable | cartSetCfg
deriving DecidableEq, Repr

/-- A `DbgPacket`: its class and the buffer `m_pData` as its constructor allocated and filled it. -/
structure DbgPacket where
  cls : PacketClass
  mData : List UInt8
deriving DecidableEq, Repr

namespace DbgPacket

/-- `PacketData()`. -/
def packetData (p : DbgPacket) : List UInt8 := p.mData

/-- `*reinterpret_cast<USHORT*>(&m_pData[k])`. -/
def field (p : DbgPacket) (k : Nat) : UInt16 := le16 (p.mData.getD k 0) (p.mData.getD (k + 1) 0)

/-- `SizeInBytes()` of each class. -/
def sizeInBytes (p : DbgPacket) : Nat :=
  match p.cls with
  | .echo => 1 + 2 + (p.field 1).toNat
  | .cpuMemRd | .ppuMemRd => 1 + 2 + 2
  | .cpuMemWr | .ppuMemWr => 1 + 2 + 2 + (p.field 3).toNat
  | .dbgHlt | .dbgRun | .ppuDisable | .queryHlt => 1
  | .cpuRegRd => 1 + 1
  | .cpuRegWr => 1 + 1 + 1
  | .cartSetCfg => 1 + 5

/-- `ReturnBytesExpected()` of each class. -/
def returnBytesExpected (p : DbgPacket) : Nat :=
  match p.cls with
  | .echo => (p.field 1).toNat
  | .cpuMemRd | .ppuMemRd => (p.field 3).toNat
  | .cpuRegRd | .queryHlt => 1
  | .cpuMemWr | .ppuMemWr | .dbgHlt | .dbgRun | .cpuRegWr | .ppuDisable | .cartSetCfg => 0

/-- The bytes `PacketData()[0..SizeInBytes())` that `SendData(PacketData(), SizeInBytes())` reads. -/
def wire (p : DbgPacket) : List UInt8 := p.packetData.take p.sizeInBytes

end DbgPacket

/-! ### Constructors -/

/-- `EchoPacket(pEchoData, numBytes)`. -/
def echoPacket (pEchoData : Ptr) (numBytes : UInt16) : DbgPacket :=
  ⟨.echo, DbgPacketOpCode.echo.toByte :: le16Bytes numBytes ++ copy pEchoData numBytes.toNat⟩

/-- The body of `CpuMemRdPacket` and `PpuMemRdPacket`. -/
def memRdPacket (cls : PacketClass) (op : DbgPacketOpCode) (addr numBytes : UInt16) : DbgPacket :=
  ⟨cls, op.toByte :: le16Bytes addr ++ le16Bytes numBytes⟩

/-- The body of `CpuMemWrPacket` and `PpuMemWrPacket`. -/
def memWrPacket (cls : PacketClass) (op : DbgPacketOpCode) (addr numBytes : UInt16) (pData : Ptr) :
    DbgPacket :=
  ⟨cls, op.toByte :: le16Bytes addr ++ le16Bytes numBytes ++ copy pData numBytes.toNat⟩

/-- The body of the packets that are their opcode alone. -/
def opOnlyPacket (cls : PacketClass) (op : DbgPacketOpCode) : DbgPacket := ⟨cls, [op.toByte]⟩

def cpuMemRdPacket (addr numBytes : UInt16) : DbgPacket := memRdPacket .cpuMemRd .cpuMemRd addr numBytes

def cpuMemWrPacket (addr numBytes : UInt16) (pData : Ptr) : DbgPacket :=
  memWrPacket .cpuMemWr .cpuMemWr addr numBytes pData

def dbgHltPacket : DbgPacket := opOnlyPacket .dbgHlt .dbgHlt

def dbgRunPacket : DbgPacket := opOnlyPacket .dbgRun .dbgRun

/-- `CpuRegRdPacket(reg)`. -/
def cpuRegRdPacket (reg : CpuReg) : DbgPacket := ⟨.cpuRegRd, [DbgPacketOpCode.cpuRegRd.toByte, reg.toByte]⟩

/-- `CpuRegWrPacket(reg, val)`. -/
def cpuRegWrPacket (reg : CpuReg) (val : UInt8) : DbgPacket :=
  ⟨.cpuRegWr, [DbgPacketOpCode.cpuRegWr.toByte, reg.toByte, val]⟩

def queryHltPacket : DbgPacket := opOnlyPacket .queryHlt .queryHlt

def ppuMemRdPacket (addr numBytes : UInt16) : DbgPacket := memRdPacket .ppuMemRd .ppuMemRd addr numBytes

def ppuMemWrPacket (addr numBytes : UInt16) (pData : Ptr) : DbgPacket :=
  memWrPacket .ppuMemWr .ppuMemWr addr numBytes pData

def ppuDisablePacket : DbgPacket := opOnlyPacket .ppuDisable .ppuDisable

/-- `CartSetCfgPacket(pINesHeader)`: bytes 4 to 8 of the iNES header. -/
def cartSetCfgPacket (pINesHeader : Ptr) : DbgPacket :=
  ⟨.cartSetCfg, DbgPacketOpCode.cartSetCfg.toByte :: copy (fun i => pINesHeader (4 + i)) 5⟩

/-- A packet with a payload reads its pointer below its count only. -/
theorem echoPacket_congr {p q : Ptr} {n : UInt16} (h : ∀ i < n.toNat, p i = q i) :
    echoPacket p n = echoPacket q n := by
  rw [echoPacket, echoPacket, copy_congr h]

theorem memWrPacket_congr {cls : PacketClass} {op : DbgPacketOpCode} {addr n : UInt16} {p q : Ptr}
    (h : ∀ i < n.toNat, p i = q i) : memWrPacket cls op addr n p = memWrPacket cls op addr n q := by
  rw [memWrPacket, memWrPacket, copy_congr h]

/-! ### Count fields -/

namespace DbgPacket

theorem field_one (cls : PacketClass) (op : UInt8) (n : UInt16) (rest : List UInt8) :
    (⟨cls, op :: (le16Bytes n ++ rest)⟩ : DbgPacket).field 1 = n := by
  simp [field, le16Bytes, le16_le16Bytes]

theorem field_three (cls : PacketClass) (op : UInt8) (a n : UInt16) (rest : List UInt8) :
    (⟨cls, op :: (le16Bytes a ++ (le16Bytes n ++ rest))⟩ : DbgPacket).field 3 = n := by
  simp [field, le16Bytes, le16_le16Bytes]

end DbgPacket

/-! ### The opcode table -/

/-- One call of a packet constructor, with its arguments. -/
inductive Construction
  | echo (pEchoData : Ptr) (numBytes : UInt16)
  | cpuMemRd (addr numBytes : UInt16)
  | cpuMemWr (addr numBytes : UInt16) (pData : Ptr)
  | dbgHlt
  | dbgRun
  | cpuRegRd (reg : CpuReg)
  | cpuRegWr (reg : CpuReg) (val : UInt8)
  | queryHlt
  | ppuMemRd (addr numBytes : UInt16)
  | ppuMemWr (addr numBytes : UInt16) (pData : Ptr)
  | ppuDisable
  | cartSetCfg (pINesHeader : Ptr)

namespace Construction

/-- The packet the constructor builds. -/
def build : Construction → DbgPacket
  | echo p n => echoPacket p n
  | cpuMemRd a n => cpuMemRdPacket a n
  | cpuMemWr a n p => cpuMemWrPacket a n p
  | dbgHlt => dbgHltPacket
  | dbgRun => dbgRunPacket
  | cpuRegRd reg => cpuRegRdPacket reg
  | cpuRegWr reg v => cpuRegWrPacket reg v
  | queryHlt => queryHltPacket
  | ppuMemRd a n => ppuMemRdPacket a n
  | ppuMemWr a n p => ppuMemWrPacket a n p
  | ppuDisable => ppuDisablePacket
  | cartSetCfg h => cartSetCfgPacket h

/-- The opcode of the constructor's row of the table. -/
def opcode : Construction → DbgPacketOpCode
  | echo .. => .echo
  | cpuMemRd .. => .cpuMemRd
  | cpuMemWr .. => .cpuMemWr
  | dbgHlt => .dbgHlt
  | dbgRun => .dbgRun
  | cpuRegRd .. => .cpuRegRd
  | cpuRegWr .. => .cpuRegWr
  | queryHlt => .queryHlt
  | ppuMemRd .. => .ppuMemRd
  | ppuMemWr .. => .ppuMemWr
  | ppuDisable => .ppuDisable
  | cartSetCfg .. => .cartSetCfg

/-- The argument fields in the table's order: a 16-bit field low byte first, the data bytes last. -/
def fields : Construction → List (List UInt8)
  | echo p n => [le16Bytes n, copy p n.toNat]
  | cpuMemRd a n | ppuMemRd a n => [le16Bytes a, le16Bytes n]
  | cpuMemWr a n p | ppuMemWr a n p => [le16Bytes a, le16Bytes n, copy p n.toNat]
  | dbgHlt | dbgRun | queryHlt | ppuDisable => []
  | cpuRegRd reg => [[reg.toByte]]
  | cpuRegWr reg v => [[reg.toByte], [v]]
  | cartSetCfg h => [copy (fun i => h (4 + i)) 5]

/-- The wire layout of the table: the opcode byte, then the fields. -/
def layout (k : Construction) : List UInt8 := k.opcode.toByte :: k.fields.flatten

/-- The response length of the table: the count of a read or an echo, one byte for a register read
    and for the halt query, none otherwise. -/
def responseLength : Construction → Nat
  | echo _ n | cpuMemRd _ n | ppuMemRd _ n => n.toNat
  | cpuRegRd _ | queryHlt => 1
  | cpuMemWr .. | ppuMemWr .. | dbgHlt | dbgRun | cpuRegWr .. | ppuDisable | cartSetCfg _ => 0

end Construction

/-- The length of the packet a byte stream starts with, as a receiver frames it: fixed by the opcode
    byte and, for Echo, CpuMemWr and PpuMemWr, by the count field. -/
def frameLength : List UInt8 → Option Nat
  | [] => none
  | op :: rest =>
    match DbgPacketOpCode.ofByte? op with
    | some .echo => some (3 + (le16 (rest.getD 0 0) (rest.getD 1 0)).toNat)
    | some .cpuMemWr | some .ppuMemWr => some (5 + (le16 (rest.getD 2 0) (rest.getD 3 0)).toNat)
    | some .cpuMemRd | some .ppuMemRd => some 5
    | some .cpuRegRd => some 2
    | some .cpuRegWr => some 3
    | some .cartSetCfg => some 6
    | some .dbgHlt | some .dbgRun | some .queryHlt | some .ppuDisable => some 1
    | some .queryErrCode | none => none

namespace Construction

/-- The class of the packet the constructor builds. -/
def packetClass : Construction → PacketClass
  | echo .. => .echo
  | cpuMemRd .. => .cpuMemRd
  | cpuMemWr .. => .cpuMemWr
  | dbgHlt => .dbgHlt
  | dbgRun => .dbgRun
  | cpuRegRd .. => .cpuRegRd
  | cpuRegWr .. => .cpuRegWr
  | queryHlt => .queryHlt
  | ppuMemRd .. => .ppuMemRd
  | ppuMemWr .. => .ppuMemWr
  | ppuDisable => .ppuDisable
  | cartSetCfg .. => .cartSetCfg

/-- Every constructor fills its buffer with the table's layout. -/
theorem build_eq (k : Construction) : k.build = ⟨k.packetClass, k.layout⟩ := by
  cases k <;> simp [build, packetClass, layout, fields, opcode, echoPacket, cpuMemRdPacket, cpuMemWrPacket,
    ppuMemRdPacket, ppuMemWrPacket, memRdPacket, memWrPacket, opOnlyPacket, dbgHltPacket, dbgRunPacket,
    queryHltPacket, ppuDisablePacket, cpuRegRdPacket, cpuRegWrPacket, cartSetCfgPacket]

theorem sizeInBytes_build (k : Construction) : k.build.sizeInBytes = k.layout.length := by
  rw [build_eq]
  cases k <;> simp [DbgPacket.sizeInBytes, packetClass, layout, fields, DbgPacket.field_one,
    DbgPacket.field_three] <;> omega

theorem returnBytesExpected_build (k : Construction) : k.build.returnBytesExpected = k.responseLength := by
  rw [build_eq]
  cases k <;> simp [DbgPacket.returnBytesExpected, packetClass, layout, fields, responseLength,
    DbgPacket.field, le16Bytes, le16_le16Bytes]

theorem frameLength_layout (k : Construction) : frameLength k.layout = some k.layout.length := by
  cases k <;> simp [frameLength, layout, fields, opcode, DbgPacketOpCode.ofByte?_toByte, le16Bytes,
    le16_le16Bytes] <;> omega

theorem wire_build (k : Construction) : k.build.wire = k.layout := by
  rw [DbgPacket.wire, DbgPacket.packetData, sizeInBytes_build, build_eq, List.take_length]

/-- Every constructor lays its packet out as the opcode table says; `SizeInBytes` is the length of the
    buffer, one byte more than the fields, and the length a receiver frames from the opcode byte and count
    field; `ReturnBytesExpected` is the table's response length. -/
theorem construction_layout (k : Construction) :
    k.build.wire = k.layout ∧ k.build.sizeInBytes = k.build.mData.length ∧
      k.build.sizeInBytes = 1 + (k.fields.map List.length).foldr (· + ·) 0 ∧
      frameLength k.layout = some k.build.sizeInBytes ∧ k.build.returnBytesExpected = k.responseLength := by
  have hs := sizeInBytes_build k
  refine ⟨wire_build k, by rw [hs, build_eq], ?_, by rw [hs]; exact frameLength_layout k,
    returnBytesExpected_build k⟩
  rw [hs, layout, List.length_cons, List.length_flatten, Nat.add_comm]
  rfl

end Construction

/-! ### The wire bytes of each constructor -/

theorem wire_echoPacket (p : Ptr) (n : UInt16) :
    (echoPacket p n).wire = DbgPacketOpCode.echo.toByte :: (le16Bytes n ++ copy p n.toNat) := by
  rw [show echoPacket p n = (Construction.echo p n).build from rfl, Construction.wire_build]
  simp [Construction.layout, Construction.fields, Construction.opcode]

theorem wire_cpuMemRdPacket (addr n : UInt16) :
    (cpuMemRdPacket addr n).wire = DbgPacketOpCode.cpuMemRd.toByte :: (le16Bytes addr ++ le16Bytes n) := by
  rw [show cpuMemRdPacket addr n = (Construction.cpuMemRd addr n).build from rfl, Construction.wire_build]
  simp [Construction.layout, Construction.fields, Construction.opcode]

theorem wire_ppuMemRdPacket (addr n : UInt16) :
    (ppuMemRdPacket addr n).wire = DbgPacketOpCode.ppuMemRd.toByte :: (le16Bytes addr ++ le16Bytes n) := by
  rw [show ppuMemRdPacket addr n = (Construction.ppuMemRd addr n).build from rfl, Construction.wire_build]
  simp [Construction.layout, Construction.fields, Construction.opcode]

theorem wire_cpuMemWrPacket (addr n : UInt16) (p : Ptr) :
    (cpuMemWrPacket addr n p).wire =
      DbgPacketOpCode.cpuMemWr.toByte :: (le16Bytes addr ++ (le16Bytes n ++ copy p n.toNat)) := by
  rw [show cpuMemWrPacket addr n p = (Construction.cpuMemWr addr n p).build from rfl, Construction.wire_build]
  simp [Construction.layout, Construction.fields, Construction.opcode]

theorem wire_ppuMemWrPacket (addr n : UInt16) (p : Ptr) :
    (ppuMemWrPacket addr n p).wire =
      DbgPacketOpCode.ppuMemWr.toByte :: (le16Bytes addr ++ (le16Bytes n ++ copy p n.toNat)) := by
  rw [show ppuMemWrPacket addr n p = (Construction.ppuMemWr addr n p).build from rfl, Construction.wire_build]
  simp [Construction.layout, Construction.fields, Construction.opcode]

theorem wire_cpuRegRdPacket (reg : CpuReg) :
    (cpuRegRdPacket reg).wire = [DbgPacketOpCode.cpuRegRd.toByte, reg.toByte] :=
  Construction.wire_build (.cpuRegRd reg)

theorem wire_cpuRegWrPacket (reg : CpuReg) (val : UInt8) :
    (cpuRegWrPacket reg val).wire = [DbgPacketOpCode.cpuRegWr.toByte, reg.toByte, val] :=
  Construction.wire_build (.cpuRegWr reg val)

end NesDbg
