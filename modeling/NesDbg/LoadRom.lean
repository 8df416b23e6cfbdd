import NesDbg.Commands
import NesDbg.Device

/-! `NesDbg::LoadRom` (`nesdbg.cpp`).

`LoadRom` reads the ROM file into a 1 MiB buffer, checks the iNES header at the buffer's start, and then
sends one fixed sequence of packets: DbgHlt, PpuDisable, CartSetCfg, the PRG region in 1 KiB CpuMemWr
chunks from CPU `$8000`, the CHR region in 1 KiB PpuMemWr chunks from PPU `$0000`, the reset vector to the
PC, DbgRun. It looks at no `SendData` result (in the release build, where the assertion in `SendData` is
empty), and it never compares the number of bytes read with the banks the header declares: a chunk past
the end of the file carries the buffer's stale bytes.

`loadRom_eq` splits it into the messages it shows and the packets it sends (`romMessages`, `romPackets`);
the theorems below are about those two lists and the device that receives the packets. -/

namespace NesDbg

variable {σ : Type}

/-- `FileDataBufferSize`. -/
def fileDataBufferSize : Nat := 0x100000

/-- `transferBlockSize`. -/
def transferBlockSize : Nat := 0x400

/-- What the file calls of `LoadRom` give: no file chosen in the dialog, a file that does not open, a
    `ReadFile` that fails, or the bytes read. -/
inductive RomFile
  | cancelled
  | openFailed
  | readFailed
  | read (bytes : List UInt8)

/-- `pFileData` after `ReadFile`: the file's first bytes, at most `FileDataBufferSize`, over the
    uninitialised bytes `stale` of `new BYTE[FileDataBufferSize]`. -/
def romImage (stale : Ptr) (bytes : List UInt8) : Ptr := overlay (bytes.take fileDataBufferSize) stale

/-- The message boxes of the header checks; every check runs, whatever the earlier ones found. -/
def headerMessages (pFileData : Ptr) : List String :=
  (if pFileData 0 ≠ 0x4E ∨ pFileData 1 ≠ 0x45 ∨ pFileData 2 ≠ 0x53 ∨ pFileData 3 ≠ 0x1A then
    ["Invalid ROM header."] else []) ++
  (if (pFileData 4).toNat > 2 ∨ (pFileData 5).toNat > 1 then ["Too many ROM banks."] else []) ++
  (if pFileData 6 &&& 0x08 ≠ 0 then ["Only horizontal and vertical mirroring are supported."] else []) ++
  (if ((pFileData 6 &&& 0xF0) >>> 4) ||| (pFileData 7 &&& 0xF0) ≠ 0 then ["Only mapper 0 is supported."]
    else [])

/-- `prgRomBanks`, header byte 4. -/
def prgRomBanks (pFileData : Ptr) : Nat := (pFileData 4).toNat

/-- `chrRomBanks`, header byte 5. -/
def chrRomBanks (pFileData : Ptr) : Nat := (pFileData 5).toNat

/-- The packets `LoadRom` sends once the header checks pass, in order. -/
def loadRomPackets (pFileData : Ptr) : List DbgPacket :=
  let prgRomDataSize := prgRomBanks pFileData * 0x4000
  let chrRomDataSize := chrRomBanks pFileData * 0x2000
  [dbgHltPacket, ppuDisablePacket, cartSetCfgPacket pFileData] ++
    (List.range (prgRomDataSize / transferBlockSize)).map (fun i =>
      cpuMemWrPacket (UInt16.ofNat (0x8000 + transferBlockSize * i)) (UInt16.ofNat transferBlockSize)
        fun k => pFileData (16 + transferBlockSize * i + k)) ++
    (List.range (chrRomDataSize / transferBlockSize)).map (fun i =>
      ppuMemWrPacket (UInt16.ofNat (transferBlockSize * i)) (UInt16.ofNat transferBlockSize)
        fun k => pFileData (16 + prgRomDataSize + transferBlockSize * i + k)) ++
    [cpuRegWrPacket .pcl (pFileData (16 + prgRomDataSize - 4)),
      cpuRegWrPacket .pch (pFileData (16 + prgRomDataSize - 3)), dbgRunPacket]

/-- `NesDbg::LoadRom`, from the file dialog on: the message boxes it shows, and the link after its sends. -/
def loadRom (P : Port σ) (l : Link σ) (stale : Ptr) : RomFile → List String × Link σ
  | .cancelled => ([], l)
  | .openFailed => (["Failed to open ROM file."], l)
  | .readFailed => (["Failed to read data from ROM file."], l)
  | .read bytes =>
    let pFileData := romImage stale bytes
    let msgs := headerMessages pFileData
    if msgs = [] then (msgs, (loadRomPackets pFileData).foldl (issue P) l) else (msgs, l)

/-! ### What `LoadRom` shows and sends -/

/-- The message boxes `LoadRom` shows for a file. -/
def romMessages (stale : Ptr) : RomFile → List String
  | .cancelled => []
  | .openFailed => ["Failed to open ROM file."]
  | .readFailed => ["Failed to read data from ROM file."]
  | .read bytes => headerMessages (romImage stale bytes)

/-- The packets `LoadRom` sends for a file. -/
def romPackets (stale : Ptr) : RomFile → List DbgPacket
  | .read bytes =>
    if headerMessages (romImage stale bytes) = [] then loadRomPackets (romImage stale bytes) else []
  | _ => []

theorem loadRom_eq (P : Port σ) (l : Link σ) (stale : Ptr) (file : RomFile) :
    loadRom P l stale file = (romMessages stale file, (romPackets stale file).foldl (issue P) l) := by
  cases file with
  | read bytes => simp only [loadRom, romMessages, romPackets]; split_ifs <;> rfl
  | _ => rfl

theorem sentData_foldl_issue (P : Port σ) (pkts : List DbgPacket) (l : Link σ) :
    sentData (pkts.foldl (issue P) l).calls = sentData l.calls ++ pkts.map DbgPacket.wire := by
  induction pkts generalizing l with
  | nil => simp
  | cons pkt pkts ih => rw [List.foldl_cons, ih, issue_sentData, List.map_cons, List.append_assoc, List.singleton_append]

/-- An iNES image of the header alone: no PRG bank, no CHR bank, `$1234` in header bytes 12 and 13. -/
def headerOnlyRom : List UInt8 := [0x4E, 0x45, 0x53, 0x1A, 0, 0, 0, 0, 0, 0, 0, 0, 0x34, 0x12, 0, 0]

/-- An iNES image whose header declares one PRG bank, cut after the header. -/
def shortRom : List UInt8 := [0x4E, 0x45, 0x53, 0x1A, 1, 0, 0, 0, 0, 0, 0, 0, 0, 0, 0, 0]

/-! ### Transport failures -/

/-- On a port where every send fails, `LoadRom` of an accepted image shows no message; its first send,
    DbgHlt, fails and it still sends DbgRun last. -/
theorem loadRom_dead_port :
    (loadRom Port.dead ⟨(), []⟩ (fun _ => 0) (.read headerOnlyRom)).1 = [] ∧
    (loadRom Port.dead ⟨(), []⟩ (fun _ => 0) (.read headerOnlyRom)).2.calls.head? =
      some (.send dbgHltPacket.wire false) ∧
    (loadRom Port.dead ⟨(), []⟩ (fun _ => 0) (.read headerOnlyRom)).2.calls.getLast? =
      some (.send dbgRunPacket.wire false) := by
  decide

/-! ### What the packets read -/

/-- Below `FileDataBufferSize` the read buffer holds the file's byte where the file reaches, and its stale
    byte past the file's end. -/
theorem romImage_of_lt (stale : Ptr) (bytes : List UInt8) {k : Nat} (hk : k < fileDataBufferSize) :
    romImage stale bytes k = bytes.getD k (stale k) := by
  simp [romImage, overlay, List.getElem?_take, hk, List.getD_eq_getElem?_getD]

/-- The sequence of the spec (§4) for an image `img` with `p` PRG and `c` CHR banks: DbgHlt, PpuDisable,
    CartSetCfg of header bytes 4..8; `16p` CpuMemWr of 1024 bytes, the `i`-th from offset `16 + 1024i` to
    CPU `$8000 + 1024i`; `8c` PpuMemWr of 1024 bytes, the `j`-th from offset `16 + 0x4000p + 1024j` to
    PPU `1024j`; the PC's low and high bytes from PRG offsets `0x4000p - 4` and `0x4000p - 3`; DbgRun. -/
def romLoadSequence (img : Ptr) (p c : Nat) : List DbgPacket :=
  [dbgHltPacket, ppuDisablePacket, cartSetCfgPacket img] ++
    (List.range (16 * p)).map (fun i =>
      cpuMemWrPacket (UInt16.ofNat (0x8000 + 1024 * i)) 1024 fun k => img (16 + 1024 * i + k)) ++
    (List.range (8 * c)).map (fun j =>
      ppuMemWrPacket (UInt16.ofNat (1024 * j)) 1024 fun k => img (16 + 0x4000 * p + 1024 * j + k)) ++
    [cpuRegWrPacket .pcl (img (16 + 0x4000 * p - 4)), cpuRegWrPacket .pch (img (16 + 0x4000 * p - 3)),
      dbgRunPacket]

/-- `LoadRom`'s loops cut the regions into the spec's chunks, for the banks of header bytes 4 and 5. -/
theorem loadRomPackets_eq_sequence (img : Ptr) :
    loadRomPackets img = romLoadSequence img (img 4).toNat (img 5).toNat := by
  have hprg : (img 4).toNat * 0x4000 / transferBlockSize = 16 * (img 4).toNat := by
    unfold transferBlockSize; omega
  have hchr : (img 5).toNat * 0x2000 / transferBlockSize = 8 * (img 5).toNat := by
    unfold transferBlockSize; omega
  rw [loadRomPackets, romLoadSequence, prgRomBanks, chrRomBanks, hprg, hchr, Nat.mul_comm (img 4).toNat]
  rfl

/-- The header checks pass only for at most two PRG banks and one CHR bank. -/
theorem banks_of_headerMessages {img : Ptr} (h : headerMessages img = []) :
    (img 4).toNat ≤ 2 ∧ (img 5).toNat ≤ 1 := by
  simp only [headerMessages, List.append_eq_nil, ite_eq_right_iff, List.cons_ne_nil, imp_false] at h
  omega

/-- Cutting `m * n` writes into `m` runs of `n`. -/
theorem flatMap_range_chunks {β : Type} (m n : Nat) (F : Nat → List β) (g : Nat → β)
    (h : ∀ i < m, F i = (List.range n).map fun k => g (n * i + k)) :
    (List.range m).flatMap F = (List.range (m * n)).map g := by
  induction m with
  | zero => simp
  | succ m ih =>
    rw [List.range_succ, List.flatMap_append, ih fun i hi => h i (by omega), Nat.succ_mul, List.range_add,
      List.map_append, List.map_map]
    simp [h m (by omega), Function.comp_def, Nat.mul_comm n m]

theorem writesIn_cpuMemWrPacket (op : DbgPacketOpCode) (addr n : UInt16) (p : Ptr) :
    writesIn op (cpuMemWrPacket addr n p).wire =
      if op = .cpuMemWr then (List.range n.toNat).map fun k => (addr.toNat + k, p k) else [] := by
  rw [writesIn, wire_cpuMemWrPacket, memWrites_layout]
  cases op <;> rfl

theorem writesIn_ppuMemWrPacket (op : DbgPacketOpCode) (addr n : UInt16) (p : Ptr) :
    writesIn op (ppuMemWrPacket addr n p).wire =
      if op = .ppuMemWr then (List.range n.toNat).map fun k => (addr.toNat + k, p k) else [] := by
  rw [writesIn, wire_ppuMemWrPacket, memWrites_layout]
  cases op <;> rfl

/-- The packets of the sequence that write no memory. -/
theorem writesIn_control {op : DbgPacketOpCode} (hop : op = .cpuMemWr ∨ op = .ppuMemWr) (img : Ptr)
    (v w : UInt8) :
    writesIn op dbgHltPacket.wire = [] ∧ writesIn op ppuDisablePacket.wire = [] ∧
      writesIn op (cartSetCfgPacket img).wire = [] ∧ writesIn op (cpuRegWrPacket .pcl v).wire = [] ∧
      writesIn op (cpuRegWrPacket .pch w).wire = [] ∧ writesIn op dbgRunPacket.wire = [] := by
  rcases hop with rfl | rfl <;> exact ⟨rfl, rfl, rfl, rfl, rfl, rfl⟩

theorem flatMap_nil_fun {α β : Type} (l : List α) : (l.flatMap fun _ => ([] : List β)) = [] :=
  List.flatMap_eq_nil_iff.2 fun _ _ => rfl

/-- The CPU writes of the sequence: the PRG region from `$8000` on, in order, each byte once. -/
theorem writesOf_cpu_sequence (img : Ptr) {p : Nat} (c : Nat) (hp : p ≤ 2) :
    writesOf .cpuMemWr ((romLoadSequence img p c).map DbgPacket.wire) =
      (List.range (0x4000 * p)).map fun a => (0x8000 + a, img (16 + a)) := by
  obtain ⟨h1, h2, h3, h4, h5, h6⟩ :=
    writesIn_control (.inl rfl) img (img (16 + 0x4000 * p - 4)) (img (16 + 0x4000 * p - 3))
  simp only [romLoadSequence, List.map_append, writesOf_append, writesOf_map_wire, List.flatMap_map,
    Function.comp_def, writesIn_cpuMemWrPacket, writesIn_ppuMemWrPacket, if_true, reduceCtorEq, if_false,
    flatMap_nil_fun, List.flatMap_cons, List.flatMap_nil, h1, h2, h3, h4, h5, h6, List.nil_append, List.append_nil]
  rw [flatMap_range_chunks (16 * p) 1024 _ (fun a => (0x8000 + a, img (16 + a))) fun i hi => ?_,
    show 16 * p * 1024 = 0x4000 * p by omega]
  simp only [toNat_word, Nat.mod_eq_of_lt (by omega : 0x8000 + 1024 * i < 65536),
    show (1024 : UInt16).toNat = 1024 from rfl, Nat.add_assoc]

/-- The PPU writes of the sequence: the CHR region from `$0000` on, in order, each byte once. -/
theorem writesOf_ppu_sequence (img : Ptr) (p : Nat) {c : Nat} (hc : c ≤ 1) :
    writesOf .ppuMemWr ((romLoadSequence img p c).map DbgPacket.wire) =
      (List.range (0x2000 * c)).map fun a => (a, img (16 + 0x4000 * p + a)) := by
  obtain ⟨h1, h2, h3, h4, h5, h6⟩ :=
    writesIn_control (.inr rfl) img (img (16 + 0x4000 * p - 4)) (img (16 + 0x4000 * p - 3))
  simp only [romLoadSequence, List.map_append, writesOf_append, writesOf_map_wire, List.flatMap_map,
    Function.comp_def, writesIn_cpuMemWrPacket, writesIn_ppuMemWrPacket, if_true, reduceCtorEq, if_false,
    flatMap_nil_fun, List.flatMap_cons, List.flatMap_nil, h1, h2, h3, h4, h5, h6, List.nil_append, List.append_nil]
  rw [flatMap_range_chunks (8 * c) 1024 _ (fun a => (a, img (16 + 0x4000 * p + a))) fun i hi => ?_,
    show 8 * c * 1024 = 0x2000 * c by omega]
  simp only [toNat_word, Nat.mod_eq_of_lt (by omega : 1024 * i < 65536),
    show (1024 : UInt16).toNat = 1024 from rfl, Nat.add_assoc]

theorem replay_cpuMem_sequence (img : Ptr) {p : Nat} (c : Nat) (hp : p ≤ 2) (d : Device) (a : Nat) :
    (d.replay ((romLoadSequence img p c).map DbgPacket.wire)).cpuMem a =
      if 0x8000 ≤ a ∧ a < 0x8000 + 0x4000 * p then img (16 + (a - 0x8000)) else d.cpuMem a := by
  show store d.cpuMem (writesOf .cpuMemWr _) a = _
  rw [writesOf_cpu_sequence img c hp]
  exact store_range d.cpuMem (fun a => img (16 + a)) (by omega) a

theorem replay_ppuMem_sequence (img : Ptr) (p : Nat) {c : Nat} (hc : c ≤ 1) (d : Device) (a : Nat) :
    (d.replay ((romLoadSequence img p c).map DbgPacket.wire)).ppuMem a =
      if a < 0x2000 * c then img (16 + 0x4000 * p + a) else d.ppuMem a := by
  show store d.ppuMem (writesOf .ppuMemWr _) a = _
  have h0 : ((List.range (0x2000 * c)).map fun a => (a, img (16 + 0x4000 * p + a))) =
      (List.range (0x2000 * c)).map fun k => (0 + k, img (16 + 0x4000 * p + k)) := by simp
  rw [writesOf_ppu_sequence img p hc, h0, store_range d.ppuMem (fun k => img (16 + 0x4000 * p + k)) (by omega) a]
  simp

/-- For every file whose read buffer passes the header checks, with `p` and `c` the bank counts of header
    bytes 4 and 5, `LoadRom` sends the spec's sequence whatever the port does, cut from its read buffer:
    below the end of the declared region the buffer holds the file's bytes where the file reaches and its
    stale bytes past the file's end. Replayed on any device, the chunks store the buffer's PRG region at
    CPU `$8000` on and its CHR region at PPU `$0000` on, each byte once and in order, below `$10000`, and
    leave every other address as it was. -/
theorem loadRom_transfers (P : Port σ) (l : Link σ) (stale : Ptr) (bytes : List UInt8)
    (h : headerMessages (romImage stale bytes) = []) :
    let img := romImage stale bytes
    let p := (img 4).toNat
    let c := (img 5).toNat
    let ws := (romLoadSequence img p c).map DbgPacket.wire
    p ≤ 2 ∧ c ≤ 1 ∧ (∀ k < 16 + 0x4000 * p + 0x2000 * c, img k = bytes.getD k (stale k)) ∧
    sentData (loadRom P l stale (.read bytes)).2.calls = sentData l.calls ++ ws ∧
    writesOf .cpuMemWr ws = (List.range (0x4000 * p)).map (fun a => (0x8000 + a, img (16 + a))) ∧
    writesOf .ppuMemWr ws = (List.range (0x2000 * c)).map (fun a => (a, img (16 + 0x4000 * p + a))) ∧
    0x8000 + 0x4000 * p ≤ 0x10000 ∧
    ∀ (d : Device) (a : Nat),
      (d.replay ws).cpuMem a =
        (if 0x8000 ≤ a ∧ a < 0x8000 + 0x4000 * p then img (16 + (a - 0x8000)) else d.cpuMem a) ∧
      (d.replay ws).ppuMem a = if a < 0x2000 * c then img (16 + 0x4000 * p + a) else d.ppuMem a := by
  intro img p c ws
  obtain ⟨hp, hc⟩ : p ≤ 2 ∧ c ≤ 1 := banks_of_headerMessages h
  refine ⟨hp, hc, fun k hk => romImage_of_lt stale bytes (by unfold fileDataBufferSize; omega), ?_,
    writesOf_cpu_sequence img c hp, writesOf_ppu_sequence img p hc, by omega,
    fun d a => ⟨replay_cpuMem_sequence img c hp d a, replay_ppuMem_sequence img p hc d a⟩⟩
  rw [loadRom_eq, sentData_foldl_issue, romPackets, if_pos h, loadRomPackets_eq_sequence]

theorem loadRom_transfers_shortRom :
    headerMessages (romImage (fun _ => 0) shortRom) = [] ∧ (romImage (fun _ => 0) shortRom 4).toNat ≤ 2 :=
  ⟨by decide, (loadRom_transfers Port.dead ⟨(), []⟩ (fun _ => 0) shortRom (by decide)).1⟩

/-- The short file declares one PRG bank and holds none of it: `LoadRom` accepts it, and on a device of
    zeros its first chunk stores at CPU `$8000` the buffer's stale byte from offset 16, past the file's
    end. -/
theorem loadRom_transfers_stale :
    romMessages (fun _ => 0xEA) (.read shortRom) = [] ∧ shortRom.length = 16 ∧
      ((Device.mk (fun _ => 0) (fun _ => 0)).replay
        ((romPackets (fun _ => 0xEA) (.read shortRom)).map DbgPacket.wire)).cpuMem 0x8000 = 0xEA := by
  have hm : headerMessages (romImage (fun _ => 0xEA) shortRom) = [] := by decide
  refine ⟨hm, rfl, ?_⟩
  rw [romPackets, if_pos hm, loadRomPackets_eq_sequence, replay_cpuMem_sequence _ _ (by decide), if_pos (by decide)]
  exact overlay_of_le _ (by simp [shortRom, fileDataBufferSize])

/-! ### The reset vector -/

/-- For an accepted image with PRG banks, the PC bytes `LoadRom` sends are the bytes its chunks stored at
    PRG offsets `0x4000p - 4` and `0x4000p - 3`, CPU `$8000 + 0x4000p - 4` and `- 3`: the offsets that the
    cartridge maps at `$FFFC` and `$FFFD`. -/
theorem loadRom_resetVector (stale : Ptr) (bytes : List UInt8) (h : headerMessages (romImage stale bytes) = [])
    (hp : 1 ≤ prgRomBanks (romImage stale bytes)) (d : Device) :
    let p := prgRomBanks (romImage stale bytes)
    let mem := (d.replay ((romPackets stale (.read bytes)).map DbgPacket.wire)).cpuMem
    [cpuRegWrPacket .pcl (mem (0x8000 + 0x4000 * p - 4)), cpuRegWrPacket .pch (mem (0x8000 + 0x4000 * p - 3)),
        dbgRunPacket] <:+ romPackets stale (.read bytes) ∧
      (0x8000 + 0x4000 * p - 4) % 0x4000 = 0x3FFC := by
  intro p mem
  have hp2 : p ≤ 2 := (banks_of_headerMessages h).1
  have hseq : romPackets stale (.read bytes) =
      romLoadSequence (romImage stale bytes) p (romImage stale bytes 5).toNat := by
    rw [romPackets, if_pos h, loadRomPackets_eq_sequence]
    rfl
  have hmem : ∀ k, 3 ≤ k → k ≤ 0x4000 * p → mem (0x8000 + 0x4000 * p - k) = romImage stale bytes (16 + 0x4000 * p - k) := by
    intro k hk hk'
    simp only [mem, hseq, replay_cpuMem_sequence _ _ hp2]
    rw [if_pos (by omega)]
    exact congrArg (romImage stale bytes) (by omega)
  refine ⟨?_, by rcases (by omega : p = 1 ∨ p = 2) with h1 | h2 <;> simp [*]⟩
  rw [hmem 4 (by omega) (by omega), hmem 3 le_rfl (by omega), hseq]
  exact ⟨_, rfl⟩

theorem loadRom_resetVector_shortRom :
    headerMessages (romImage (fun _ => 0) shortRom) = [] ∧ 1 ≤ prgRomBanks (romImage (fun _ => 0) shortRom) ∧
      (0x8000 + 0x4000 * prgRomBanks (romImage (fun _ => 0) shortRom) - 4) % 0x4000 = 0x3FFC :=
  ⟨by decide, by decide, (loadRom_resetVector _ _ (by decide) (by decide) ⟨fun _ => 0, fun _ => 0⟩).2⟩

/-- The header-only image passes every check; `LoadRom` sends no PRG chunk for it and takes the PC bytes
    from header bytes 12 and 13. -/
theorem loadRom_resetVector_header :
    romMessages (fun _ => 0) (.read headerOnlyRom) = [] ∧
      romPackets (fun _ => 0) (.read headerOnlyRom) =
        [dbgHltPacket, ppuDisablePacket, cartSetCfgPacket (romImage (fun _ => 0) headerOnlyRom),
          cpuRegWrPacket .pcl 0x34, cpuRegWrPacket .pch 0x12, dbgRunPacket] := by
  decide

end NesDbg
