import NesDbg.LoadAsm
import NesDbg.LoadRom
import NesDbg.Session

/-! `LoadRom` and `LoadAsm` on a table-following device.

`LoadRom` sends its packets one after another and reads no response. On a synced target each of them is
framed whole and answered with nothing, so the target stays synced and the machine executes the packets in
order (`foldl_issue_target`). The first is DbgHlt: from then on the CPU does nothing but what the packets
tell it, the memory chunks change the memories alone (`Machine.execPackets_memWr`), and the last packet
lets the CPU run from the PC the two CpuRegWr packets set. `loadRom_target` says what the machine holds
then, for every file whose read buffer passes the header checks, whatever the device held and the CPU was
doing: the regions it stores are the read buffer's, the file's bytes where the file reaches. -/

namespace NesDbg

section
variable (run : Machine → Machine)

/-- The machine after a run of packets, each executed on the machine as a running CPU has left it. -/
def Machine.execPackets (m : Machine) (pkts : List DbgPacket) : Machine :=
  pkts.foldl (fun m pkt => ((m.advance run).exec pkt.wire).1) m

theorem Machine.execPackets_append (m : Machine) (xs ys : List DbgPacket) :
    m.execPackets run (xs ++ ys) = (m.execPackets run xs).execPackets run ys :=
  List.foldl_append _ _ _ _

/-- Packets without response, sent to a synced target one after another: every send succeeds, and the
    target stays synced while the machine executes them in order. -/
theorem foldl_issue_target (pkts : List DbgPacket)
    (hp : ∀ pkt ∈ pkts, pkt.Framed ∧ pkt.returnBytesExpected = 0) {t : Target} (ht : t.Synced)
    (cs : List Call) :
    pkts.foldl (issue (Target.port run)) ⟨t, cs⟩ =
      ⟨⟨t.m.execPackets run pkts, [], []⟩, cs ++ pkts.map fun pkt => .send pkt.wire true⟩ := by
  induction pkts generalizing t cs with
  | nil =>
    obtain ⟨m, pending, out⟩ := t
    obtain ⟨rfl, rfl⟩ := ht
    simp [Machine.execPackets]
  | cons pkt pkts ih =>
    obtain ⟨hf, h0⟩ := hp pkt (List.mem_cons_self ..)
    have hr : ((t.m.advance run).exec pkt.wire).2 = [] := by rw [← List.length_eq_zero, hf.answer, h0]
    rw [List.foldl_cons, issue_target run ht hf, hr,
      ih (fun q hq => hp q (List.mem_cons_of_mem _ hq)) (t := ⟨_, [], []⟩) ⟨rfl, rfl⟩]
    simp [Machine.execPackets]

/-- Memory writes on a halted CPU change the memories alone, as `Device.replay` decodes them. -/
theorem Machine.execPackets_memWr {m : Machine} (hh : m.halted = true) (pkts : List DbgPacket)
    (hp : ∀ pkt ∈ pkts, (∃ a n p, pkt = cpuMemWrPacket a n p) ∨ ∃ a n p, pkt = ppuMemWrPacket a n p) :
    m.execPackets run pkts = { m with mem := m.mem.replay (pkts.map DbgPacket.wire) } := by
  induction pkts generalizing m with
  | nil => rfl
  | cons pkt pkts ih =>
    have hstep : (m.exec pkt.wire).1 = { m with mem := m.mem.replay [pkt.wire] } := by
      rw [← Machine.exec_mem]
      rcases hp pkt (List.mem_cons_self ..) with ⟨a, n, p, rfl⟩ | ⟨a, n, p, rfl⟩
      · rw [Machine.exec_cpuMemWrPacket]
      · rw [Machine.exec_ppuMemWrPacket]
    have ih' := ih (m := { m with mem := m.mem.replay [pkt.wire] }) hh
      fun q hq => hp q (List.mem_cons_of_mem _ hq)
    simp only [Machine.execPackets, List.foldl_cons, Machine.advance_of_halted hh, hstep] at ih' ⊢
    rw [ih', ← Device.replay_append, List.singleton_append, List.map_cons]

end

/-! ### `LoadRom` -/

/-- Every packet of the load sequence is a constructor's without response. -/
theorem romLoadSequence_construction (img : Ptr) (p c : Nat) :
    ∀ pkt ∈ romLoadSequence img p c, ∃ k : Construction, k.build = pkt ∧ k.responseLength = 0 := by
  simp only [romLoadSequence, List.mem_append, List.mem_cons, List.mem_map, List.mem_range, List.mem_singleton,
    List.not_mem_nil, or_false]
  rintro pkt ((((rfl | rfl | rfl) | ⟨i, -, rfl⟩) | ⟨j, -, rfl⟩) | rfl | rfl | rfl)
  exacts [⟨.dbgHlt, rfl, rfl⟩, ⟨.ppuDisable, rfl, rfl⟩, ⟨.cartSetCfg _, rfl, rfl⟩, ⟨.cpuMemWr _ _ _, rfl, rfl⟩,
    ⟨.ppuMemWr _ _ _, rfl, rfl⟩, ⟨.cpuRegWr _ _, rfl, rfl⟩, ⟨.cpuRegWr _ _, rfl, rfl⟩, ⟨.dbgRun, rfl, rfl⟩]

/-- The control packets of the sequence store nothing. -/
theorem replay_control_head (d : Device) (img : Ptr) :
    d.replay [dbgHltPacket.wire, ppuDisablePacket.wire, (cartSetCfgPacket img).wire] = d := by
  obtain ⟨c1, c2, c3, -⟩ := writesIn_control (.inl rfl) img 0 0
  obtain ⟨p1, p2, p3, -⟩ := writesIn_control (.inr rfl) img 0 0
  simp [Device.replay, writesOf, store, *]

theorem replay_control_tail (d : Device) (v w : UInt8) :
    d.replay [(cpuRegWrPacket .pcl v).wire, (cpuRegWrPacket .pch w).wire, dbgRunPacket.wire] = d := by
  obtain ⟨-, -, -, c4, c5, c6⟩ := writesIn_control (.inl rfl) (fun _ => 0) v w
  obtain ⟨-, -, -, p4, p5, p6⟩ := writesIn_control (.inr rfl) (fun _ => 0) v w
  simp [Device.replay, writesOf, store, *]

section
variable (run : Machine → Machine)

/-- The shape of the load sequence on the machine: whatever the CPU did until DbgHlt arrived, the control
    packets set the halt flag, the PPU enable and the cartridge configuration, the memory chunks store as
    `Device.replay` decodes them, PCL and PCH (selectors 0 and 1) are set, and the CPU runs. -/
theorem Machine.execPackets_load (m : Machine) (img : Ptr) (v w : UInt8) {prg chr : List DbgPacket}
    (hprg : ∀ pkt ∈ prg, ∃ a n p, pkt = cpuMemWrPacket a n p)
    (hchr : ∀ pkt ∈ chr, ∃ a n p, pkt = ppuMemWrPacket a n p) :
    let pkts := [dbgHltPacket, ppuDisablePacket, cartSetCfgPacket img] ++ prg ++ chr ++
      [cpuRegWrPacket .pcl v, cpuRegWrPacket .pch w, dbgRunPacket]
    m.execPackets run pkts =
      { m.advance run with
        mem := (m.advance run).mem.replay (pkts.map DbgPacket.wire)
        regs := Function.update (Function.update (m.advance run).regs 0 v) 1 w
        halted := false
        ppuEnabled := false
        cartCfg := copy (fun i => img (4 + i)) 5 } := by
  intro pkts
  have hA : m.execPackets run [dbgHltPacket, ppuDisablePacket, cartSetCfgPacket img] =
      { m.advance run with
        halted := true
        ppuEnabled := false
        cartCfg := copy (fun i => img (4 + i)) 5 } := by
    simp [Machine.execPackets]
  have hmem : (m.advance run).mem.replay (pkts.map DbgPacket.wire) =
      ((m.advance run).mem.replay (prg.map DbgPacket.wire)).replay (chr.map DbgPacket.wire) := by
    simp only [pkts, List.map_append, Device.replay_append, List.map_cons, List.map_nil,
      replay_control_head, replay_control_tail]
  rw [hmem]
  simp only [pkts, Machine.execPackets_append]
  rw [hA, Machine.execPackets_memWr run rfl prg fun pkt h => .inl (hprg pkt h),
    Machine.execPackets_memWr run rfl chr fun pkt h => .inr (hchr pkt h)]
  simp [Machine.execPackets, show CpuReg.pcl.toByte.toNat = 0 from rfl, show CpuReg.pch.toByte.toNat = 1 from rfl]

/-- For every file whose read buffer passes the header checks, with `p` and `c` the bank counts of header
    bytes 4 and 5, `LoadRom` on a synced target, whatever the device held and the CPU was doing until
    DbgHlt arrived (`m₀`): halts the CPU, disables the PPU, sets the cartridge configuration to header bytes
    4..8, stores the PRG region of the buffer at CPU `$8000` on and its CHR region at PPU `$0000` on and
    changes no other address, sets PCL and PCH to the buffer bytes at offsets `16 + 0x4000p - 4` and `- 3`
    and no other register, and lets the CPU run. Every send succeeds, and the target ends synced. Below the
    end of the declared region the buffer holds the file's bytes where the file reaches and its stale bytes
    past the file's end. -/
theorem loadRom_target (stale : Ptr) (bytes : List UInt8) (h : headerMessages (romImage stale bytes) = [])
    {t : Target} (ht : t.Synced) (cs : List Call) :
    let img := romImage stale bytes
    let p := (img 4).toNat
    let c := (img 5).toNat
    let m₀ := t.m.advance run
    let l := (loadRom (Target.port run) ⟨t, cs⟩ stale (.read bytes)).2
    (∀ k < 16 + 0x4000 * p + 0x2000 * c, img k = bytes.getD k (stale k)) ∧ l.st.pending = [] ∧ l.st.out = [] ∧ (∀ call ∈ l.calls, call ∈ cs ∨ call.succeeded = true) ∧
      l.st.m.halted = false ∧ l.st.m.ppuEnabled = false ∧ l.st.m.cartCfg = copy (fun i => img (4 + i)) 5 ∧
      l.st.m.regs = Function.update (Function.update m₀.regs 0 (img (16 + 0x4000 * p - 4))) 1
        (img (16 + 0x4000 * p - 3)) ∧
      (∀ a, l.st.m.mem.cpuMem a =
        if 0x8000 ≤ a ∧ a < 0x8000 + 0x4000 * p then img (16 + (a - 0x8000)) else m₀.mem.cpuMem a) ∧
      ∀ a, l.st.m.mem.ppuMem a = if a < 0x2000 * c then img (16 + 0x4000 * p + a) else m₀.mem.ppuMem a := by
  intro img p c m₀ l
  obtain ⟨hp, hc⟩ : p ≤ 2 ∧ c ≤ 1 := banks_of_headerMessages h
  have hseq : l = (romLoadSequence img p c).foldl (issue (Target.port run)) ⟨t, cs⟩ := by
    show (loadRom (Target.port run) ⟨t, cs⟩ stale (.read bytes)).2 = _
    rw [loadRom_eq, romPackets, if_pos h, loadRomPackets_eq_sequence]
  have hM : t.m.execPackets run (romLoadSequence img p c) = _ :=
    Machine.execPackets_load run t.m img _ _
      (fun pkt hpkt => by obtain ⟨i, -, rfl⟩ := List.mem_map.mp hpkt; exact ⟨_, _, _, rfl⟩)
      (fun pkt hpkt => by obtain ⟨j, -, rfl⟩ := List.mem_map.mp hpkt; exact ⟨_, _, _, rfl⟩)
  rw [hseq, foldl_issue_target run _ (fun pkt hpkt => by
    obtain ⟨k, rfl, hk⟩ := romLoadSequence_construction img p c pkt hpkt
    exact ⟨k.framed, by rw [Construction.returnBytesExpected_build, hk]⟩) ht cs, hM]
  refine ⟨fun k hk => romImage_of_lt stale bytes (by unfold fileDataBufferSize; omega), rfl, rfl,
    fun call hcall => ?_, rfl, rfl, rfl, rfl, replay_cpuMem_sequence img c hp m₀.mem,
    replay_ppuMem_sequence img p hc m₀.mem⟩
  rcases List.mem_append.mp hcall with h | h
  · exact .inl h
  · obtain ⟨pkt, -, rfl⟩ := List.mem_map.mp h
    exact .inr rfl

/-- The header-only image: the PC's low byte comes from header byte 12. -/
theorem loadRom_target_headerOnly :
    headerMessages (romImage (fun _ => 0) headerOnlyRom) = [] ∧ Target.idle.Synced ∧
      (loadRom (Target.port id) ⟨Target.idle, []⟩ (fun _ => 0) (.read headerOnlyRom)).2.st.m.regs 0 = 0x34 := by
  have h : headerMessages (romImage (fun _ => 0) headerOnlyRom) = [] := by decide
  refine ⟨h, ⟨rfl, rfl⟩, ?_⟩
  rw [(loadRom_target id (fun _ => 0) headerOnlyRom h (t := Target.idle) ⟨rfl, rfl⟩ []).2.2.2.2.2.2.2.1]
  decide

/-! ### `LoadAsm` -/

/-- `LoadAsm(name)` on a synced target, for every file read and whatever the CPU did before the packet
    arrived (`m₀`): it returns the load address `startPc`, stores the `count` bytes of its buffer from
    offset 2 on at `startPc` and up, wrapping at `0x10000`, changes nothing else of the device, and leaves
    the target synced. For a file of `L ≥ 2` bytes, `count` is `min L 0x10000 - 2` and those bytes are the
    file's own; a shorter file makes `count` wrap to `0xFFFF` or `0xFFFE` bytes of the buffer. -/
theorem luaLoadAsm_target (stale : Ptr) (files : String → PrgFile) (name : String) (bytes : List UInt8)
    (hf : files (asmPrgDir ++ createTcharString name) = .read bytes) {t : Target} (ht : t.Synced)
    (cs : List Call) :
    let pFileData := overlay (bytes.take asmFileDataBufferSize) stale
    let startPc := (pFileData 0).toNat + 256 * (pFileData 1).toNat
    let count := (fileDataActualSize bytes - 2).toUInt16.toNat
    let m₀ := t.m.advance run
    let r := luaLoadAsm (Target.port run) ⟨t, cs⟩ stale files [.string name]
    r.2.1 = [.number startPc] ∧ r.2.2.st.pending = [] ∧ r.2.2.st.out = [] ∧
      r.2.2.st.m = { m₀ with mem := { m₀.mem with
        cpuMem := store m₀.mem.cpuMem ((List.range count).map fun k => (startPc + k, pFileData (2 + k))) } } ∧
      (∀ a < 0x10000, r.2.2.st.m.mem.cpuMem a =
        if (a + 0x10000 - startPc) % 0x10000 < count then pFileData (2 + (a + 0x10000 - startPc) % 0x10000)
        else m₀.mem.cpuMem a) ∧
      (2 ≤ bytes.length → count = min bytes.length 0x10000 - 2 ∧ ∀ k < count, pFileData (2 + k) = bytes.getD (2 + k) 0) := by
  intro pFileData startPc count m₀ r
  have hpkt : loadAsmPacket pFileData bytes =
      (Construction.cpuMemWr (startPcOf pFileData) (fileDataActualSize bytes - 2).toUInt16
        fun i => pFileData (2 + i)).build := rfl
  have hr : r = _ := luaLoadAsm_read (Target.port run) ⟨t, cs⟩ stale hf
  have hpc : (startPcOf pFileData).toNat = startPc := by rw [startPcOf_eq, toNat_le16]
  rw [hr, hpkt, issue_target run ht (Construction.framed _), Construction.exec_build, ← hpc]
  refine ⟨rfl, rfl, rfl, rfl,
    fun a ha => store_range_wrap _ _ (word_lt _) (by have := word_lt (fileDataActualSize bytes - 2).toUInt16; omega) ha,
    fun h2 => ?_⟩
  have hcount : count = min bytes.length 0x10000 - 2 := by
    simp only [count, toNat_toUInt16, toNat_fileDataActualSize_sub h2, List.length_take, asmFileDataBufferSize]
    omega
  refine ⟨hcount, fun k hk => overlay_take_of_lt ?_ (by omega) stale⟩
  rw [hcount] at hk
  simp only [asmFileDataBufferSize]
  omega

theorem luaLoadAsm_target_nop :
    (fun _ => PrgFile.read [0x00, 0x80, 0xEA]) (asmPrgDir ++ createTcharString "nop.prg") =
        .read [0x00, 0x80, 0xEA] ∧ Target.idle.Synced ∧
      (luaLoadAsm (Target.port id) ⟨Target.idle, []⟩ (fun _ => 0) (fun _ => .read [0x00, 0x80, 0xEA])
        [.string "nop.prg"]).2.2.st.m.mem.cpuMem 0x8000 = 0xEA := by
  refine ⟨rfl, ⟨rfl, rfl⟩, ?_⟩
  rw [(luaLoadAsm_target id (fun _ => 0) (fun _ => .read [0x00, 0x80, 0xEA]) "nop.prg" [0x00, 0x80, 0xEA] rfl
    (t := Target.idle) ⟨rfl, rfl⟩ []).2.2.2.2.1 0x8000 (by decide)]
  decide

end

end NesDbg
