import NesDbg.Commands
import NesDbg.ScriptDlg

/-! `ScriptMgr::LuaLoadAsm` (`scriptmgr.cpp`): `LoadAsm(name)` loads an assembled `.prg` file.

It reads the file into a buffer of `0x10000` bytes, takes the load address from the first two bytes and
sends the rest in one CpuMemWr: `CpuMemWrPacket(startPc, (USHORT)(fileDataActualSize - 2), &pFileData[2])`.
The count is `DWORD` arithmetic cut to 16 bits, and nothing compares `fileDataActualSize` with 2: for a
file of one byte or none the count wraps to `0xFFFF` or `0xFFFE`, and the payload is read from the buffer's
stale bytes, up to `pFileData[0x10000]`, one past its end. -/

namespace NesDbg

variable {σ : Type}

/-- What `CreateFile` and `ReadFile` give `LuaLoadAsm`: a file that does not open, a `ReadFile` that
    fails, or the file's bytes. -/
inductive PrgFile
  | openFailed
  | readFailed
  | read (bytes : List UInt8)

/-- `__pAsmPrgDir`. -/
def asmPrgDir : String := "../asm/prg/"

/-- `FileDataBufferSize` of `LuaLoadAsm`. -/
def asmFileDataBufferSize : Nat := 0x10000

/-- `fileDataActualSize`: the bytes `ReadFile` reads into the buffer, a `DWORD`. -/
def fileDataActualSize (bytes : List UInt8) : UInt32 := UInt32.ofNat (min bytes.length asmFileDataBufferSize)

/-- `startPc = pFileData[0] | (pFileData[1] << 8)`. -/
def startPcOf (pFileData : Ptr) : UInt16 := UInt16.ofNat ((pFileData 0).toNat ||| (pFileData 1).toNat <<< 8)

/-- The packet `LuaLoadAsm` sends for the buffer `pFileData` after reading `bytes`. -/
def loadAsmPacket (pFileData : Ptr) (bytes : List UInt8) : DbgPacket :=
  cpuMemWrPacket (startPcOf pFileData) (fileDataActualSize bytes - 2).toUInt16 fun i => pFileData (2 + i)

/-- `LuaLoadAsm` for `LoadAsm(input)`, where `files` is what opening and reading each path gives and `stale`
    what `new BYTE[FileDataBufferSize]` held: its message boxes, the values returned to the script, and the
    link after its send. -/
def luaLoadAsm (P : Port σ) (l : Link σ) (stale : Ptr) (files : String → PrgFile) (args : List LuaValue) :
    List String × List LuaValue × Link σ :=
  if !argIsString args 1 then ([], [], l)
  else
    match files (asmPrgDir ++ createTcharString (argToStr args 1)) with
    | .openFailed => (["Failed to open .prg file."], [.number 0], l)
    | .readFailed => (["Failed to read data from .prg file."], [.number 0], l)
    | .read bytes =>
      let pFileData := overlay (bytes.take asmFileDataBufferSize) stale
      ([], [.number (startPcOf pFileData).toNat], issue P l (loadAsmPacket pFileData bytes))

/-! ### What it sends -/

/-- The load address is the first byte plus 256 times the second. -/
theorem startPcOf_eq (p : Ptr) : startPcOf p = le16 (p 0) (p 1) := by
  have h0 : (p 0).toNat < 2 ^ 8 := byte_lt (p 0)
  rw [startPcOf, le16, Nat.shiftLeft_eq, Nat.or_comm, Nat.mul_comm, ← Nat.mul_add_lt_is_or h0, Nat.add_comm]

theorem toNat_toUInt16 (x : UInt32) : x.toUInt16.toNat = x.toNat % 65536 := toNat_word x.toNat

/-- `fileDataActualSize` is the number of bytes read into the buffer. -/
theorem toNat_fileDataActualSize (bytes : List UInt8) :
    (fileDataActualSize bytes).toNat = (bytes.take asmFileDataBufferSize).length := by
  rw [fileDataActualSize, UInt32.toNat_ofNat_of_lt (by simp only [asmFileDataBufferSize, UInt32.size]; omega),
    List.length_take, Nat.min_comm]

/-- With at least two bytes read, `fileDataActualSize - 2` does not wrap. -/
theorem toNat_fileDataActualSize_sub {bytes : List UInt8} (h2 : 2 ≤ bytes.length) :
    (fileDataActualSize bytes - 2).toNat = (bytes.take asmFileDataBufferSize).length - 2 := by
  have hlen : 2 ≤ (bytes.take asmFileDataBufferSize).length := by
    simp only [List.length_take, asmFileDataBufferSize]; omega
  rw [UInt32.toNat_sub_of_le _ _ (show (2 : UInt32).toNat ≤ (fileDataActualSize bytes).toNat by
    rw [toNat_fileDataActualSize]; exact hlen),
    toNat_fileDataActualSize]
  rfl

theorem wire_loadAsmPacket (p : Ptr) (bytes : List UInt8) :
    (loadAsmPacket p bytes).wire = 0x02 :: [p 0, p 1] ++ le16Bytes (fileDataActualSize bytes - 2).toUInt16 ++
      copy (fun i => p (2 + i)) ((fileDataActualSize bytes - 2).toNat % 65536) := by
  rw [loadAsmPacket, wire_cpuMemWrPacket, startPcOf_eq, le16Bytes_le16, toNat_toUInt16]
  rfl

theorem luaLoadAsm_read (P : Port σ) (l : Link σ) (stale : Ptr) {files : String → PrgFile} {name : String}
    {bytes : List UInt8} (hf : files (asmPrgDir ++ createTcharString name) = .read bytes) :
    luaLoadAsm P l stale files [.string name] =
      ([], [.number (startPcOf (overlay (bytes.take asmFileDataBufferSize) stale)).toNat],
        issue P l (loadAsmPacket (overlay (bytes.take asmFileDataBufferSize) stale) bytes)) := by
  simp only [luaLoadAsm, show argIsString [.string name] 1 = true from rfl,
    show argToStr [.string name] 1 = name from rfl, hf]
  rfl

/-- The bytes at and after offset `k` of a list laid over the heap, as many as the list has there. -/
theorem copy_overlay_drop (xs : List UInt8) (heap : Ptr) (k : Nat) :
    copy (fun i => overlay xs heap (k + i)) (xs.length - k) = xs.drop k :=
  List.ext_getElem (by simp) fun i h1 _ => by
    simp only [getElem_copy, List.getElem_drop]
    exact overlay_of_lt heap (by simp at h1; omega)

theorem overlay_take_of_lt {bytes : List UInt8} {n j : Nat} (hj : j < n) (hl : j < bytes.length) (heap : Ptr) :
    overlay (bytes.take n) heap j = bytes.getD j 0 := by
  simp [overlay, List.getElem?_take, hj, List.getElem?_eq_getElem hl]

/-- For a file of at least two bytes `LoadAsm` returns the load address `file[0] + 256 file[1]` and sends
    one CpuMemWr to it: its count is `L - 2` for the `L` bytes read, and its payload the bytes at offsets
    `2..L)` of the file. -/
theorem luaLoadAsm_sends (P : Port σ) (l : Link σ) (stale : Ptr) (files : String → PrgFile) (name : String)
    (bytes : List UInt8) (hf : files (asmPrgDir ++ createTcharString name) = .read bytes)
    (h2 : 2 ≤ bytes.length) :
    let r := luaLoadAsm P l stale files [.string name]
    r.1 = [] ∧ r.2.1 = [.number ((bytes.getD 0 0).toNat + 256 * (bytes.getD 1 0).toNat)] ∧
      sentData r.2.2.calls = sentData l.calls ++
        [0x02 :: bytes.getD 0 0 :: bytes.getD 1 0 ::
          le16Bytes (UInt16.ofNat (min bytes.length 0x10000 - 2)) ++ (bytes.take 0x10000).drop 2] := by
  intro r
  have hr : r = _ := luaLoadAsm_read P l stale hf
  have hlen : (bytes.take asmFileDataBufferSize).length = min bytes.length 0x10000 := by
    simp only [List.length_take, asmFileDataBufferSize]; omega
  have hsub := toNat_fileDataActualSize_sub h2
  have h0 := overlay_take_of_lt (n := asmFileDataBufferSize) (by decide) (by omega : 0 < bytes.length) stale
  have h1 := overlay_take_of_lt (n := asmFileDataBufferSize) (by decide) (by omega : 1 < bytes.length) stale
  have hcount : (fileDataActualSize bytes - 2).toUInt16 = UInt16.ofNat (min bytes.length 0x10000 - 2) :=
    UInt16.toNat.inj (by rw [toNat_toUInt16, hsub, toNat_word, hlen])
  refine ⟨by rw [hr], ?_, ?_⟩
  · rw [hr, startPcOf_eq, toNat_le16, h0, h1]
    push_cast
    rfl
  · rw [hr, issue_sentData, wire_loadAsmPacket, hcount, hsub, Nat.mod_eq_of_lt (by omega), copy_overlay_drop, h0, h1]
    rfl

theorem luaLoadAsm_sends_three :
    (fun _ => PrgFile.read [0x00, 0x80, 0xEA]) (asmPrgDir ++ createTcharString "nop.prg") =
        .read [0x00, 0x80, 0xEA] ∧ 2 ≤ [(0x00 : UInt8), 0x80, 0xEA].length ∧
      sentData (luaLoadAsm Port.dead ⟨(), []⟩ (fun _ => 0) (fun _ => .read [0x00, 0x80, 0xEA])
        [.string "nop.prg"]).2.2.calls = [[0x02, 0x00, 0x80, 0x01, 0x00, 0xEA]] :=
  ⟨rfl, by decide, (luaLoadAsm_sends Port.dead ⟨(), []⟩ (fun _ => 0) (fun _ => .read [0x00, 0x80, 0xEA])
    "nop.prg" [0x00, 0x80, 0xEA] rfl (by decide)).2.2⟩

/-- A file of one byte, 0x12, makes `LoadAsm` send a CpuMemWr of `0xFFFF` bytes, each of them a stale byte
    of the buffer, from offset 2 up to offset `0x10000`, one past its end; an empty file sends `0xFFFE`
    stale bytes to a stale address. -/
theorem luaLoadAsm_short_file (P : Port σ) (l : Link σ) (stale : Ptr) :
    sentData (luaLoadAsm P l stale (fun _ => .read [0x12]) [.string "one.prg"]).2.2.calls =
        sentData l.calls ++ [[0x02, 0x12, stale 1, 0xFF, 0xFF] ++ (List.range 0xFFFF).map fun i => stale (2 + i)] ∧
      sentData (luaLoadAsm P l stale (fun _ => .read []) [.string "none.prg"]).2.2.calls =
        sentData l.calls ++ [[0x02, stale 0, stale 1, 0xFE, 0xFF] ++ (List.range 0xFFFE).map fun i => stale (2 + i)] := by
  have hp : (fun i => overlay (List.take asmFileDataBufferSize [0x12]) stale (2 + i)) = fun i => stale (2 + i) :=
    funext fun i => overlay_of_le stale (by simp; omega)
  constructor
  · rw [luaLoadAsm_read P l stale rfl, issue_sentData, wire_loadAsmPacket, hp]
    simp only [show (fileDataActualSize [0x12] - 2).toUInt16 = 0xFFFF by decide,
      show (fileDataActualSize [0x12] - 2).toNat % 65536 = 0xFFFF by decide, copy]
    rfl
  · rw [luaLoadAsm_read P l stale rfl, issue_sentData, wire_loadAsmPacket]
    simp only [show (fileDataActualSize [] - 2).toUInt16 = 0xFFFE by decide,
      show (fileDataActualSize [] - 2).toNat % 65536 = 0xFFFE by decide, copy, List.take_nil]
    rfl

end NesDbg
