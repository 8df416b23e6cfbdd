import NesDbg.Device
import NesDbg.Serial

/-! The far side of the link: a device that follows the opcode table (spec §3).

Nothing of the FPGA is under `src/`; this is the level the host's packets are written for. A `Machine`
is what a packet can read or change: the CPU and PPU memories, the CPU registers by selector, whether the
CPU is halted, whether the PPU is enabled, and the cartridge configuration. `Machine.exec` is what one
packet does, read from its wire bytes alone. Between two packets a running CPU may change the machine in
any way: `run` stands for that work, and every result here holds for every `run`.

A `Target` adds the receiver: the bytes of a packet that has not arrived whole (`pending`) and the
response bytes the host has not read yet (`out`). `Target.port` is the target as the far side of the COM
port: a `WriteFile` appends to `pending` and executes every whole packet at its front, framed by the
opcode byte and the count field (`frameLength`); a `ReadFile` takes at most the bytes asked for from
`out`. `Construction.exec_layout` says that the machine does to every constructor's bytes what the table
says of its row (`Construction.effect`), and `Construction.framed` that the receiver frames them whole and
answers with exactly `ReturnBytesExpected()` bytes. -/

namespace NesDbg

/-- What a packet can read or change on the device. -/
structure Machine where
  mem : Device
  regs : Nat → UInt8
  halted : Bool
  ppuEnabled : Bool
  cartCfg : List UInt8

/-- `count` bytes of a 64 KiB memory from `addr` on, each address modulo `0x10000`. -/
def readWindow (mem : Nat → UInt8) (addr count : Nat) : List UInt8 :=
  (List.range count).map fun k => mem ((addr + k) % 0x10000)

/-- The 16-bit field at offset `k` of a packet's bytes, low byte first. -/
def wireField (w : List UInt8) (k : Nat) : Nat := (le16 (w.getD k 0) (w.getD (k + 1) 0)).toNat

namespace Machine

/-- What a packet of opcode `op` with the bytes `w` does: the machine after it, and the bytes it answers
    with. -/
def execOp (m : Machine) (w : List UInt8) : DbgPacketOpCode → Machine × List UInt8
  | .echo => (m, (w.drop 3).take (wireField w 1))
  | .cpuMemRd => (m, readWindow m.mem.cpuMem (wireField w 1) (wireField w 3))
  | .cpuMemWr => ({ m with mem := { m.mem with cpuMem := store m.mem.cpuMem (memWrites w) } }, [])
  | .dbgHlt => ({ m with halted := true }, [])
  | .dbgRun => ({ m with halted := false }, [])
  | .cpuRegRd => (m, [m.regs (w.getD 1 0).toNat])
  | .cpuRegWr => ({ m with regs := Function.update m.regs (w.getD 1 0).toNat (w.getD 2 0) }, [])
  | .queryHlt => (m, [if m.halted then 1 else 0])
  | .ppuMemRd => (m, readWindow m.mem.ppuMem (wireField w 1) (wireField w 3))
  | .ppuMemWr => ({ m with mem := { m.mem with ppuMem := store m.mem.ppuMem (memWrites w) } }, [])
  | .ppuDisable => ({ m with ppuEnabled := false }, [])
  | .cartSetCfg => ({ m with cartCfg := w.drop 1 }, [])
  | .queryErrCode => (m, [])

/-- What the packet with the bytes `w` does, read from those bytes alone. -/
def exec (m : Machine) (w : List UInt8) : Machine × List UInt8 :=
  match w.head?.bind DbgPacketOpCode.ofByte? with
  | some op => m.execOp w op
  | none => (m, [])

theorem exec_cons (m : Machine) (op : DbgPacketOpCode) (rest : List UInt8) :
    m.exec (op.toByte :: rest) = m.execOp (op.toByte :: rest) op := by
  simp [exec, DbgPacketOpCode.ofByte?_toByte]

/-- The machine as the next packet finds it: a halted CPU has done nothing, a running one `run`'s work. -/
def advance (run : Machine → Machine) (m : Machine) : Machine := if m.halted then m else run m

@[simp] theorem advance_of_halted {run : Machine → Machine} {m : Machine} (h : m.halted = true) :
    m.advance run = m :=
  if_pos h

end Machine

/-- The device with its receiver: the machine, the bytes of a packet not yet whole, and the response
    bytes not yet read. -/
structure Target where
  m : Machine
  pending : List UInt8
  out : List UInt8

namespace Target

/-- The receiver executes the packet of `L` bytes at the front of `pending`, on the machine as a running
    CPU has left it; its response joins `out`. -/
def deliver (run : Machine → Machine) (t : Target) (L : Nat) : Target :=
  let r := (t.m.advance run).exec (t.pending.take L)
  ⟨r.1, t.pending.drop L, t.out ++ r.2⟩

/-- The receiver executes the whole packets at the front of `pending`, at most `fuel` of them. -/
def drain (run : Machine → Machine) : Nat → Target → Target
  | 0, t => t
  | fuel + 1, t =>
    match frameLength t.pending with
    | some L => if L ≤ t.pending.length then drain run fuel (t.deliver run L) else t
    | none => t

/-- The target as the far side of the COM port. Every packet is at least one byte, so a `WriteFile`
    executes every whole packet it completes. -/
def port (run : Machine → Machine) : Port Target where
  writeFile t data :=
    (true, data.length, drain run (t.pending.length + data.length) { t with pending := t.pending ++ data })
  readFile t n := (true, t.out.take n, { t with out := t.out.drop n })

/-- Host and device agree on where the stream stands: no packet half sent, no response byte unread. -/
structure Synced (t : Target) : Prop where
  pending : t.pending = []
  out : t.out = []

theorem drain_of_pending_nil (run : Machine → Machine) {t : Target} (h : t.pending = []) (fuel : Nat) :
    drain run fuel t = t := by
  cases fuel <;> simp [drain, h, frameLength]

/-- A whole packet at the front of `pending` and nothing after it: the receiver executes it. -/
theorem drain_whole (run : Machine → Machine) {t : Target} (hw : frameLength t.pending = some t.pending.length)
    (fuel : Nat) : drain run (fuel + 1) t = t.deliver run t.pending.length := by
  simp only [drain, hw, le_refl, if_true]
  exact drain_of_pending_nil run (by simp [deliver]) fuel

/-- A `WriteFile` of one whole packet into a receiver with nothing pending executes that packet. -/
theorem writeFile_frame (run : Machine → Machine) {t : Target} (h : t.pending = []) {w : List UInt8}
    (hw : frameLength w = some w.length) :
    (port run).writeFile t w =
      (true, w.length, ⟨((t.m.advance run).exec w).1, [], t.out ++ ((t.m.advance run).exec w).2⟩) := by
  have hpos : 0 < w.length := by
    cases w with
    | nil => cases hw
    | cons b w => simp
  have hd := drain_whole run (t := { t with pending := w }) hw (w.length - 1)
  rw [Nat.sub_add_cancel hpos] at hd
  simp only [port, h, List.nil_append, List.length_nil, Nat.zero_add, hd]
  simp [deliver]

theorem readFile_eq (run : Machine → Machine) (t : Target) (n : Nat) :
    (port run).readFile t n = (true, t.out.take n, { t with out := t.out.drop n }) :=
  rfl

end Target

/-! ### Replaying packets on the machine -/

/-- A packet's opcode byte names `op` exactly when the opcode it decodes to is `op`. -/
theorem head?_eq_toByte (w : List UInt8) (op : DbgPacketOpCode) :
    w.head? = some op.toByte ↔ w.head?.bind DbgPacketOpCode.ofByte? = some op := by
  cases w.head? with
  | none => simp
  | some b => simp only [Option.some_bind, Option.some.injEq, DbgPacketOpCode.ofByte?_eq_some, @eq_comm _ b]

theorem writesIn_eq (op : DbgPacketOpCode) (w : List UInt8) :
    writesIn op w = if w.head?.bind DbgPacketOpCode.ofByte? = some op then memWrites w else [] := by
  simp only [writesIn, head?_eq_toByte]

namespace Machine

/-- A packet changes the memories exactly as `Device.replay` decodes its writes from its bytes alone. -/
theorem exec_mem (m : Machine) (w : List UInt8) : (m.exec w).1.mem = m.mem.replay [w] := by
  simp only [Device.replay, writesOf, List.flatMap_cons, List.flatMap_nil, List.append_nil, writesIn_eq]
  rw [exec]
  split <;> rename_i h
  · rename_i op
    cases op <;> simp [execOp, h, store]
  · simp [h, store]

end Machine

/-- The registers after a stream of packets, read from their bytes alone: each CpuRegWr packet sets the
    register its selector byte names to its value byte, in order. -/
def regReplay (regs : Nat → UInt8) (ws : List (List UInt8)) : Nat → UInt8 :=
  ws.foldl (fun regs w =>
    if w.head? = some DbgPacketOpCode.cpuRegWr.toByte then Function.update regs (w.getD 1 0).toNat (w.getD 2 0)
    else regs) regs

theorem regReplay_append (regs : Nat → UInt8) (ws vs : List (List UInt8)) :
    regReplay regs (ws ++ vs) = regReplay (regReplay regs ws) vs :=
  List.foldl_append _ _ _ _

/-- The machine after a stream of packets that neither runs the CPU, nor disables the PPU, nor sets the
    cartridge: the memories with every write stored and the registers with every CpuRegWr value set. -/
def Machine.replay (m : Machine) (ws : List (List UInt8)) : Machine :=
  { m with
    mem := m.mem.replay ws
    regs := regReplay m.regs ws }

@[simp] theorem Machine.replay_nil (m : Machine) : m.replay [] = m := rfl

theorem Machine.replay_append (m : Machine) (ws vs : List (List UInt8)) :
    m.replay (ws ++ vs) = (m.replay ws).replay vs := by
  simp only [Machine.replay, Device.replay_append, regReplay_append]

/-- On a halted CPU, a packet that neither runs it, nor disables the PPU, nor sets the cartridge changes
    the machine exactly as `Machine.replay` decodes it from its bytes. -/
theorem Machine.exec_of_halted {m : Machine} (hh : m.halted = true) {w : List UInt8}
    (hw : ∀ op, w.head?.bind DbgPacketOpCode.ofByte? = some op →
      op ≠ .dbgRun ∧ op ≠ .ppuDisable ∧ op ≠ .cartSetCfg) :
    (m.exec w).1 = m.replay [w] := by
  obtain ⟨mem, regs, halted, ppuEnabled, cartCfg⟩ := m
  subst hh
  rw [Machine.replay, ← Machine.exec_mem]
  simp only [regReplay, List.foldl_cons, List.foldl_nil, head?_eq_toByte]
  rw [Machine.exec]
  split <;> rename_i hop
  · rename_i op
    obtain ⟨h1, h2, h3⟩ := hw op hop
    cases op <;> simp [Machine.execOp, hop] at h1 h2 h3 ⊢
  · simp [hop]

/-! ### The table on the machine -/

/-- A packet the receiver frames whole from its own bytes, and that the machine answers with exactly the
    `ReturnBytesExpected()` bytes the host reads back. -/
structure DbgPacket.Framed (pkt : DbgPacket) : Prop where
  frame : frameLength pkt.wire = some pkt.wire.length
  answer : ∀ m : Machine, (m.exec pkt.wire).2.length = pkt.returnBytesExpected

namespace Construction

/-- What the row of the table says the packet does, and what it answers. -/
def effect (m : Machine) : Construction → Machine × List UInt8
  | echo p n => (m, copy p n.toNat)
  | cpuMemRd a n => (m, readWindow m.mem.cpuMem a.toNat n.toNat)
  | cpuMemWr a n p =>
    ({ m with mem := { m.mem with
        cpuMem := store m.mem.cpuMem ((List.range n.toNat).map fun k => (a.toNat + k, p k)) } }, [])
  | dbgHlt => ({ m with halted := true }, [])
  | dbgRun => ({ m with halted := false }, [])
  | cpuRegRd reg => (m, [m.regs reg.toByte.toNat])
  | cpuRegWr reg v => ({ m with regs := Function.update m.regs reg.toByte.toNat v }, [])
  | queryHlt => (m, [if m.halted then 1 else 0])
  | ppuMemRd a n => (m, readWindow m.mem.ppuMem a.toNat n.toNat)
  | ppuMemWr a n p =>
    ({ m with mem := { m.mem with
        ppuMem := store m.mem.ppuMem ((List.range n.toNat).map fun k => (a.toNat + k, p k)) } }, [])
  | ppuDisable => ({ m with ppuEnabled := false }, [])
  | cartSetCfg h => ({ m with cartCfg := copy (fun i => h (4 + i)) 5 }, [])

/-- The machine does to every constructor's bytes what the table says of its row. -/
theorem exec_layout (m : Machine) (k : Construction) : m.exec k.layout = k.effect m := by
  rw [layout, Machine.exec_cons]
  cases k <;> simp only [Machine.execOp, opcode, fields, List.flatten_cons, List.flatten_nil, List.append_nil,
    effect, memWrites_layout] <;>
    simp [wireField, le16Bytes, le16_le16Bytes]

theorem exec_build (m : Machine) (k : Construction) : m.exec k.build.wire = k.effect m := by
  rw [wire_build, exec_layout]

end Construction

/-! Each packet on the machine, as its row of the table says. -/

namespace Machine

@[simp] theorem exec_echoPacket (m : Machine) (p : Ptr) (n : UInt16) :
    m.exec (echoPacket p n).wire = (m, copy p n.toNat) := Construction.exec_build m (.echo p n)

@[simp] theorem exec_cpuMemRdPacket (m : Machine) (a n : UInt16) :
    m.exec (cpuMemRdPacket a n).wire = (m, readWindow m.mem.cpuMem a.toNat n.toNat) :=
  Construction.exec_build m (.cpuMemRd a n)

@[simp] theorem exec_ppuMemRdPacket (m : Machine) (a n : UInt16) :
    m.exec (ppuMemRdPacket a n).wire = (m, readWindow m.mem.ppuMem a.toNat n.toNat) :=
  Construction.exec_build m (.ppuMemRd a n)

@[simp] theorem exec_cpuMemWrPacket (m : Machine) (a n : UInt16) (p : Ptr) :
    m.exec (cpuMemWrPacket a n p).wire =
      ({ m with mem := { m.mem with
        cpuMem := store m.mem.cpuMem ((List.range n.toNat).map fun k => (a.toNat + k, p k)) } }, []) :=
  Construction.exec_build m (.cpuMemWr a n p)

@[simp] theorem exec_ppuMemWrPacket (m : Machine) (a n : UInt16) (p : Ptr) :
    m.exec (ppuMemWrPacket a n p).wire =
      ({ m with mem := { m.mem with
        ppuMem := store m.mem.ppuMem ((List.range n.toNat).map fun k => (a.toNat + k, p k)) } }, []) :=
  Construction.exec_build m (.ppuMemWr a n p)

@[simp] theorem exec_dbgHltPacket (m : Machine) : m.exec dbgHltPacket.wire = ({ m with halted := true }, []) :=
  Construction.exec_build m .dbgHlt

@[simp] theorem exec_dbgRunPacket (m : Machine) : m.exec dbgRunPacket.wire = ({ m with halted := false }, []) :=
  Construction.exec_build m .dbgRun

@[simp] theorem exec_cpuRegRdPacket (m : Machine) (reg : CpuReg) :
    m.exec (cpuRegRdPacket reg).wire = (m, [m.regs reg.toByte.toNat]) :=
  Construction.exec_build m (.cpuRegRd reg)

@[simp] theorem exec_cpuRegWrPacket (m : Machine) (reg : CpuReg) (v : UInt8) :
    m.exec (cpuRegWrPacket reg v).wire = ({ m with regs := Function.update m.regs reg.toByte.toNat v }, []) :=
  Construction.exec_build m (.cpuRegWr reg v)

@[simp] theorem exec_queryHltPacket (m : Machine) :
    m.exec queryHltPacket.wire = (m, [if m.halted then 1 else 0]) :=
  Construction.exec_build m .queryHlt

@[simp] theorem exec_ppuDisablePacket (m : Machine) :
    m.exec ppuDisablePacket.wire = ({ m with ppuEnabled := false }, []) :=
  Construction.exec_build m .ppuDisable

@[simp] theorem exec_cartSetCfgPacket (m : Machine) (h : Ptr) :
    m.exec (cartSetCfgPacket h).wire = ({ m with cartCfg := copy (fun i => h (4 + i)) 5 }, []) :=
  Construction.exec_build m (.cartSetCfg h)

end Machine

namespace Construction

theorem length_effect (m : Machine) (k : Construction) : (k.effect m).2.length = k.responseLength := by
  cases k <;> simp [effect, responseLength, readWindow]

/-- Every constructor's packet is framed whole, and answered with `ReturnBytesExpected()` bytes. -/
theorem framed (k : Construction) : k.build.Framed :=
  ⟨by rw [wire_build]; exact frameLength_layout k,
    fun m => by rw [wire_build, exec_layout, length_effect, returnBytesExpected_build]⟩

end Construction

end NesDbg
