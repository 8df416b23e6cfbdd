import NesDbg.Decode
import NesDbg.Lua
import NesDbg.Serial

/-! The command paths (`scriptmgr.cpp`, `nesdbg.cpp`, `serialcomm.cpp`).

Every command that talks to the device builds one packet, sends it with `SendData` and, when it has a
response to read, reads `ReturnBytesExpected()` bytes with `ReceiveData` into a new buffer (`exchange`).
`SendData` and `ReceiveData` assert that every byte moved, which stops a debug build on a short transfer;
the model is the release build, where an assertion is empty. There no caller looks at what `SendData` or
`ReceiveData` returns: the command goes on with whatever the buffer holds, the bytes that arrived over
the uninitialised bytes of `new BYTE[n]`, here `junk`.

`Command` gathers the paths that make one exchange: the script callables, the send button of the raw
console and the handshake of `SerialComm::Init`. `Command.run_eq` says, for every port, which calls each
makes and what it gives back. -/

namespace NesDbg

variable {σ : Type}

/-! ### Exchanges -/

/-- `SendData(pkt.PacketData(), pkt.SizeInBytes())`, its result dropped. -/
def issue (P : Port σ) (l : Link σ) (pkt : DbgPacket) : Link σ := (sendData P l pkt.wire).2

/-- A packet issued, then `ReceiveData(pReceivedData, pkt.ReturnBytesExpected())` into a buffer that held
    `pReceivedData`, its result dropped: the buffer after the call. -/
def exchange (P : Port σ) (l : Link σ) (pkt : DbgPacket) (pReceivedData : Ptr) : Ptr × Link σ :=
  (receiveData P (issue P l pkt) pReceivedData pkt.returnBytesExpected).2

/-! ### Script callables

A callable whose argument check fails reaches `assert(0)`, which stops a debug build; in the release
build it returns no value and sends nothing, and the script goes on. The packet each builds from its
arguments is a function of its own, shared with `Command.packet?`. -/

/-- The byte array a callable copies out of its table argument `k`:
    `p[i - 1] = static_cast<UINT>(lua_tonumber(L, -1))` after `lua_rawgeti(L, k, i)`, the `UINT` stored
    into a `BYTE`, which keeps its low byte. -/
def argBytes (args : List LuaValue) (k : Nat) : Ptr :=
  fun i => UInt8.ofNat (toUInt (((arg args k).getD .nil).rawGetI (i + 1)).toNumber)

/-- The entries of a table at keys `1..count`, each through `static_cast<UINT>` into a byte; a missing or
    non-numeric entry gives 0. -/
def tableBytes (t : LuaValue) (count : Nat) : List UInt8 :=
  (List.range count).map fun i => UInt8.ofNat (toUInt (t.rawGetI (i + 1)).toNumber)

theorem copy_argBytes (args : List LuaValue) (k m : Nat) :
    copy (argBytes args k) m = tableBytes ((arg args k).getD .nil) m :=
  rfl

/-- The table a read callable returns: the `i`-th received byte at key `i + 1`. -/
def byteTable (bytes : List UInt8) : LuaValue := .table (bytes.map fun b => .number b.toNat)

/-- The packet exchanged, and the table of its response returned. -/
def returnTable (P : Port σ) (l : Link σ) (junk : Ptr) (pkt : DbgPacket) : List LuaValue × Link σ :=
  let (pReceivedData, l) := exchange P l pkt junk
  ([byteTable (copy pReceivedData pkt.returnBytesExpected)], l)

/-- What `LuaEcho` sends for `Echo(numBytes, inData)`. -/
def luaEchoPacket (args : List LuaValue) : Option DbgPacket :=
  if !argIsNumber args 1 || !argIsTable args 2 then none
  else some (echoPacket (argBytes args 2) (toUShort (argToNumber args 1)))

def luaEcho (P : Port σ) (l : Link σ) (junk : Ptr) (args : List LuaValue) : List LuaValue × Link σ :=
  match luaEchoPacket args with
  | none => ([], l)
  | some pkt => returnTable P l junk pkt

/-- What `LuaCpuMemRd` and `LuaPpuMemRd` send for `MemRd(address, numBytes)`. -/
def luaMemRdPacket (mk : UInt16 → UInt16 → DbgPacket) (args : List LuaValue) : Option DbgPacket :=
  if !argIsNumber args 1 || !argIsNumber args 2 then none
  else some (mk (toUShort (argToNumber args 1)) (toUShort (argToNumber args 2)))

/-- The body of `LuaCpuMemRd` and `LuaPpuMemRd`. -/
def luaMemRd (mk : UInt16 → UInt16 → DbgPacket) (P : Port σ) (l : Link σ) (junk : Ptr)
    (args : List LuaValue) : List LuaValue × Link σ :=
  match luaMemRdPacket mk args with
  | none => ([], l)
  | some pkt => returnTable P l junk pkt

def luaCpuMemRd (P : Port σ) (l : Link σ) (junk : Ptr) (args : List LuaValue) : List LuaValue × Link σ :=
  luaMemRd cpuMemRdPacket P l junk args

def luaPpuMemRd (P : Port σ) (l : Link σ) (junk : Ptr) (args : List LuaValue) : List LuaValue × Link σ :=
  luaMemRd ppuMemRdPacket P l junk args

/-- What `LuaCpuRegRd` sends for `CpuRegRd(regSel)`. -/
def luaCpuRegRdPacket (args : List LuaValue) : Option DbgPacket :=
  if !argIsNumber args 1 then none else some (cpuRegRdPacket ⟨toUInt (argToNumber args 1)⟩)

/-- A register selector goes through `static_cast<UINT>`, then `static_cast<BYTE>`. -/
theorem toNat_regSel (n : Int) : (CpuReg.mk (toUInt n)).toByte.toNat = toUInt n % 256 :=
  toNat_byte _

/-- `LuaCpuRegRd` returns `*pReceivedData`. -/
def luaCpuRegRd (P : Port σ) (l : Link σ) (junk : Ptr) (args : List LuaValue) : List LuaValue × Link σ :=
  match luaCpuRegRdPacket args with
  | none => ([], l)
  | some pkt =>
    let (pReceivedData, l) := exchange P l pkt junk
    ([.number (pReceivedData 0).toNat], l)

/-- What `LuaCpuMemWr` and `LuaPpuMemWr` send for `MemWr(address, numBytes, data)`. -/
def luaMemWrPacket (mk : UInt16 → UInt16 → Ptr → DbgPacket) (args : List LuaValue) : Option DbgPacket :=
  if !argIsNumber args 1 || !argIsNumber args 2 || !argIsTable args 3 then none
  else some (mk (toUShort (argToNumber args 1)) (toUShort (argToNumber args 2)) (argBytes args 3))

/-- The body of `LuaCpuMemWr` and `LuaPpuMemWr`. -/
def luaMemWr (mk : UInt16 → UInt16 → Ptr → DbgPacket) (P : Port σ) (l : Link σ) (args : List LuaValue) :
    List LuaValue × Link σ :=
  match luaMemWrPacket mk args with
  | none => ([], l)
  | some pkt => ([], issue P l pkt)

def luaCpuMemWr (P : Port σ) (l : Link σ) (args : List LuaValue) : List LuaValue × Link σ :=
  luaMemWr cpuMemWrPacket P l args

def luaPpuMemWr (P : Port σ) (l : Link σ) (args : List LuaValue) : List LuaValue × Link σ :=
  luaMemWr ppuMemWrPacket P l args

/-- What `LuaCpuRegWr` sends for `CpuRegWr(regSel, val)`: `val` through `static_cast<BYTE>`. -/
def luaCpuRegWrPacket (args : List LuaValue) : Option DbgPacket :=
  if !argIsNumber args 1 || !argIsNumber args 2 then none
  else some (cpuRegWrPacket ⟨toUInt (argToNumber args 1)⟩ (toByte (argToNumber args 2)))

def luaCpuRegWr (P : Port σ) (l : Link σ) (args : List LuaValue) : List LuaValue × Link σ :=
  match luaCpuRegWrPacket args with
  | none => ([], l)
  | some pkt => ([], issue P l pkt)

def luaDbgHlt (P : Port σ) (l : Link σ) : List LuaValue × Link σ := ([], issue P l dbgHltPacket)

def luaDbgRun (P : Port σ) (l : Link σ) : List LuaValue × Link σ := ([], issue P l dbgRunPacket)

/-- The polling loop of `LuaWaitForHlt`, for at most `fuel` polls: a `QueryHltPacket` exchanged into the
    same buffer each time, until the buffer's first byte is not zero. -/
def waitForHlt (P : Port σ) : Nat → Link σ → Ptr → Option (Link σ)
  | 0, _, _ => none
  | fuel + 1, l, pReceivedData =>
    let (pReceivedData, l) := exchange P l queryHltPacket pReceivedData
    if pReceivedData 0 = 0 then waitForHlt P fuel l pReceivedData else some l

/-- `LuaWaitForHlt`, when it returns within `fuel` polls. -/
def luaWaitForHlt (P : Port σ) (fuel : Nat) (l : Link σ) (junk : Ptr) : Option (List LuaValue × Link σ) :=
  (waitForHlt P fuel l junk).map fun l => ([], l)

/-! ### The raw console and the handshake -/

/-- What the raw console shows: a message box, or the text of its output box. -/
inductive DlgOutput
  | messageBox (text : String)
  | setText (text : List TChar)

/-- The `IDC_RAWDBG_SEND` branch of `RawDbgDlgProc`: `pInput` the text of the input box, `heap` what the
    buffer of `CreateObjFromString` held. -/
def rawDbgSend (P : Port σ) (l : Link σ) (heap junk : Ptr) (pInput : List TChar) : DlgOutput × Link σ :=
  match createObjFromString heap pInput with
  | none => (.messageBox "Invalid data.", l)
  | some pkt =>
    let (pReceivedData, l) := exchange P l pkt junk
    (.setText (renderOutput (copy pReceivedData pkt.returnBytesExpected)), l)

/-- `pInitString`, the characters of `"NES"`. -/
def pInitString : List UInt8 := [0x4E, 0x45, 0x53]

/-- `strcmp(s, p) == 0`, for `s` the characters of a string before its NUL. -/
def strcmpEq : List UInt8 → Ptr → Bool
  | [], p => p 0 == 0
  | c :: s, p => p 0 == c && strcmpEq s fun i => p (i + 1)

/-- `initEchoPkt`: the `strlen + 1` bytes of `"NES"`, its NUL included. -/
def initEchoPkt : DbgPacket :=
  echoPacket (fun i => (pInitString ++ [0]).getD i 0) (UInt16.ofNat (pInitString.length + 1))

/-- The handshake at the end of `SerialComm::Init`: `TRUE`, or `FALSE` with its message box. -/
def initHandshake (P : Port σ) (l : Link σ) (junk : Ptr) : Except String Unit × Link σ :=
  let (pOutString, l) := exchange P l initEchoPkt junk
  (if strcmpEq pInitString pOutString then .ok () else .error "NES FPGA not connected.", l)

/-! ### Spec lemmas -/

theorem issue_eq (P : Port σ) (l : Link σ) (pkt : DbgPacket) :
    ∃ sret st, issue P l pkt = ⟨st, l.calls ++ [.send pkt.wire sret]⟩ :=
  ⟨_, _, rfl⟩

theorem issue_sentData (P : Port σ) (l : Link σ) (pkt : DbgPacket) :
    sentData (issue P l pkt).calls = sentData l.calls ++ [pkt.wire] := by
  obtain ⟨sret, st, hs⟩ := issue_eq P l pkt
  rw [hs, sentData_append]
  rfl

/-- An exchange sends the packet's wire bytes once and asks for `ReturnBytesExpected()` bytes once,
    whatever the port does; the buffer then holds the bytes that arrived over what it held. -/
theorem exchange_eq (P : Port σ) (l : Link σ) (pkt : DbgPacket) (pReceivedData : Ptr) :
    ∃ sret got rret st, got.length ≤ pkt.returnBytesExpected ∧
      (rret = true → got.length = pkt.returnBytesExpected) ∧
      exchange P l pkt pReceivedData = (overlay got pReceivedData,
        ⟨st, l.calls ++ [.send pkt.wire sret, .receive pkt.returnBytesExpected got rret]⟩) := by
  obtain ⟨sret, st, hs⟩ := issue_eq P l pkt
  obtain ⟨got, rret, st', hle, hfull, hr⟩ :=
    receiveData_eq P (issue P l pkt) pReceivedData pkt.returnBytesExpected
  refine ⟨sret, got, rret, st', hle, hfull, ?_⟩
  rw [exchange, hr, hs]
  simp

/-- `strcmp` finds `s` equal to the string at `p` when `p` starts with the characters of `s` and a NUL. -/
theorem strcmpEq_iff (s : List UInt8) (p : Ptr) : strcmpEq s p = true ↔ copy p (s.length + 1) = s ++ [0] := by
  induction s generalizing p with
  | nil => simp [strcmpEq, copy, List.range_succ]
  | cons c s ih => simp [strcmpEq, copy_succ p (s.length + 1), ih]

/-! ### The command paths -/

/-- A command path that makes one exchange, with what it is given. -/
inductive Command
  | echo (args : List LuaValue)
  | cpuMemRd (args : List LuaValue)
  | ppuMemRd (args : List LuaValue)
  | cpuRegRd (args : List LuaValue)
  | cpuMemWr (args : List LuaValue)
  | ppuMemWr (args : List LuaValue)
  | cpuRegWr (args : List LuaValue)
  | dbgHlt
  | dbgRun
  | rawDbgSend (heap : Ptr) (pInput : List TChar)
  | init

/-- What a command gives back: the values returned to the script, what the raw console shows, or the
    handshake's verdict. -/
inductive Shown
  | lua (rets : List LuaValue)
  | dlg (out : DlgOutput)
  | init (ret : Except String Unit)

namespace Command

/-- The command as the host runs it on a port, `junk` what its new receive buffer held. -/
def run (P : Port σ) (l : Link σ) (junk : Ptr) : Command → Shown × Link σ
  | echo args => (luaEcho P l junk args).map .lua id
  | cpuMemRd args => (luaCpuMemRd P l junk args).map .lua id
  | ppuMemRd args => (luaPpuMemRd P l junk args).map .lua id
  | cpuRegRd args => (luaCpuRegRd P l junk args).map .lua id
  | cpuMemWr args => (luaCpuMemWr P l args).map .lua id
  | ppuMemWr args => (luaPpuMemWr P l args).map .lua id
  | cpuRegWr args => (luaCpuRegWr P l args).map .lua id
  | dbgHlt => (luaDbgHlt P l).map .lua id
  | dbgRun => (luaDbgRun P l).map .lua id
  | rawDbgSend heap pInput => (NesDbg.rawDbgSend P l heap junk pInput).map .dlg id
  | init => (initHandshake P l junk).map .init id

/-- The packet a command issues; `none` when its arguments fail its check or its text does not decode. -/
def packet? : Command → Option DbgPacket
  | echo args => luaEchoPacket args
  | cpuMemRd args => luaMemRdPacket cpuMemRdPacket args
  | ppuMemRd args => luaMemRdPacket ppuMemRdPacket args
  | cpuRegRd args => luaCpuRegRdPacket args
  | cpuMemWr args => luaMemWrPacket cpuMemWrPacket args
  | ppuMemWr args => luaMemWrPacket ppuMemWrPacket args
  | cpuRegWr args => luaCpuRegWrPacket args
  | dbgHlt => some dbgHltPacket
  | dbgRun => some dbgRunPacket
  | rawDbgSend heap pInput => createObjFromString heap pInput
  | init => some initEchoPkt

/-- Whether a command reads a response. -/
def reads : Command → Bool
  | echo _ | cpuMemRd _ | ppuMemRd _ | cpuRegRd _ | rawDbgSend .. | init => true
  | cpuMemWr _ | ppuMemWr _ | cpuRegWr _ | dbgHlt | dbgRun => false

/-- What a command gives back from the response bytes: a table of them, the register's byte, nothing,
    their rendering, or whether they are `"NES"` and its NUL. -/
def present : Command → List UInt8 → Shown
  | echo _ | cpuMemRd _ | ppuMemRd _ => fun bytes => .lua [byteTable bytes]
  | cpuRegRd _ => fun bytes => .lua [.number (bytes.getD 0 0).toNat]
  | cpuMemWr _ | ppuMemWr _ | cpuRegWr _ | dbgHlt | dbgRun => fun _ => .lua []
  | rawDbgSend .. => fun bytes => .dlg (.setText (renderOutput bytes))
  | init => fun bytes =>
    .init (if bytes = pInitString ++ [0] then .ok () else .error "NES FPGA not connected.")

/-- What a command gives back when it issues nothing. -/
def rejected : Command → Shown
  | rawDbgSend .. => .dlg (.messageBox "Invalid data.")
  | _ => .lua []

/-- The calls of a command for its packet: the wire bytes sent and, when it reads a response,
    `ReturnBytesExpected()` bytes asked for, of which `got` arrived. -/
def calls (cmd : Command) (pkt : DbgPacket) (sret : Bool) (got : List UInt8) (rret : Bool) : List Call :=
  .send pkt.wire sret :: if cmd.reads then [.receive pkt.returnBytesExpected got rret] else []

theorem sentData_calls (cmd : Command) (pkt : DbgPacket) (sret : Bool) (got : List UInt8) (rret : Bool) :
    sentData (cmd.calls pkt sret got rret) = [pkt.wire] := by
  unfold calls
  split <;> rfl

/-- Each path is its packet, then an exchange or a bare send, then what it makes of the buffer. -/
theorem run_eq_packet (P : Port σ) (l : Link σ) (junk : Ptr) (cmd : Command) :
    cmd.run P l junk = match cmd.packet? with
      | none => (cmd.rejected, l)
      | some pkt =>
        if cmd.reads then
          (cmd.present (copy (exchange P l pkt junk).1 pkt.returnBytesExpected), (exchange P l pkt junk).2)
        else (cmd.present [], issue P l pkt) := by
  cases cmd with
  | echo args => simp only [run, packet?, luaEcho]; cases luaEchoPacket args <;> rfl
  | cpuMemRd args => simp only [run, packet?, luaCpuMemRd, luaMemRd]; cases luaMemRdPacket _ args <;> rfl
  | ppuMemRd args => simp only [run, packet?, luaPpuMemRd, luaMemRd]; cases luaMemRdPacket _ args <;> rfl
  | cpuRegRd args => simp only [run, packet?, luaCpuRegRd, luaCpuRegRdPacket]; cases argIsNumber args 1 <;> rfl
  | cpuMemWr args => simp only [run, packet?, luaCpuMemWr, luaMemWr]; cases luaMemWrPacket _ args <;> rfl
  | ppuMemWr args => simp only [run, packet?, luaPpuMemWr, luaMemWr]; cases luaMemWrPacket _ args <;> rfl
  | cpuRegWr args => simp only [run, packet?, luaCpuRegWr]; cases luaCpuRegWrPacket args <;> rfl
  | dbgHlt => rfl
  | dbgRun => rfl
  | rawDbgSend heap pInput =>
    simp only [run, packet?, NesDbg.rawDbgSend]; cases createObjFromString heap pInput <;> rfl
  | init =>
    have hn : initEchoPkt.returnBytesExpected = pInitString.length + 1 := rfl
    simp only [run, packet?, reads, present, initHandshake, if_true, hn, ← strcmpEq_iff]
    cases strcmpEq pInitString (exchange P l initEchoPkt junk).1 <;> rfl

theorem present_of_reads {cmd : Command} (h : cmd.reads = false) (bytes : List UInt8) :
    cmd.present bytes = cmd.present [] := by
  cases cmd <;> first | rfl | cases h

/-- Whatever the port does, a command that issues a packet makes exactly its calls and gives back what
    it makes of the `ReturnBytesExpected()` bytes of its buffer: those that arrived, over the buffer's
    uninitialised bytes. -/
theorem run_eq (P : Port σ) (l : Link σ) (junk : Ptr) (cmd : Command) :
    (cmd.packet? = none ∧ cmd.run P l junk = (cmd.rejected, l)) ∨
    ∃ pkt sret got rret st, cmd.packet? = some pkt ∧ got.length ≤ pkt.returnBytesExpected ∧
      (rret = true → got.length = pkt.returnBytesExpected) ∧
      cmd.run P l junk = (cmd.present (copy (overlay got junk) pkt.returnBytesExpected),
        ⟨st, l.calls ++ cmd.calls pkt sret got rret⟩) := by
  rw [run_eq_packet]
  cases hp : cmd.packet? with
  | none => exact .inl ⟨rfl, rfl⟩
  | some pkt =>
    refine .inr ?_
    cases hr : cmd.reads
    case false =>
      obtain ⟨sret, st, hs⟩ := issue_eq P l pkt
      refine ⟨pkt, sret, [], false, st, rfl, Nat.zero_le _, nofun, ?_⟩
      simp [hs, calls, hr, present_of_reads hr]
    case true =>
      obtain ⟨sret, got, rret, st, hle, hfull, he⟩ := exchange_eq P l pkt junk
      exact ⟨pkt, sret, got, rret, st, rfl, hle, hfull, by simp [he, calls, hr]⟩

end Command

/-! ### Waiting for a halt -/

/-- The calls of one poll of `LuaWaitForHlt`: the halt query sent, its one byte asked for. -/
def pollCalls (poll : Bool × List UInt8 × Bool) : List Call :=
  [.send queryHltPacket.wire poll.1, .receive 1 poll.2.1 poll.2.2]

/-! ### What the callables send -/

/-- `CpuMemWr(0, 3, {1})` sends the data bytes 1, 0, 0; `CpuMemRd(0x10000, 1)` reads address 0;
    `CpuRegWr(7, 0x1FF)` selects register 7 and writes 0xFF; and `CpuMemWr(nil, 1, {})` returns no value
    and sends nothing, on any port. -/
theorem scriptCallables_unchecked :
    (Command.cpuMemWr [.number 0, .number 3, .table [.number 1]]).packet?.map DbgPacket.wire =
        some [0x02, 0, 0, 3, 0, 1, 0, 0] ∧
      (Command.cpuMemRd [.number 0x10000, .number 1]).packet?.map DbgPacket.wire = some [0x01, 0, 0, 1, 0] ∧
      (Command.cpuRegWr [.number 7, .number 0x1FF]).packet?.map DbgPacket.wire = some [0x06, 7, 0xFF] ∧
      ∀ {σ : Type} (P : Port σ) (l : Link σ) (junk : Ptr),
        (Command.cpuMemWr [.nil, .number 1, .table []]).run P l junk = (.lua [], l) :=
  ⟨by decide, by decide, by decide, fun _ _ _ => rfl⟩

/-! ### Transport results -/

/-- On a port where every call fails and no byte arrives, `CpuMemRd(0x8000, 2)` returns the two
    uninitialised bytes of its buffer to the script, the handshake reports a connection when its buffer
    happened to hold `"NES"`, and `WaitForHlt` returns when its buffer happened to hold a nonzero byte. -/
theorem dead_port_answers :
    (Command.cpuMemRd [.number 0x8000, .number 2]).run Port.dead ⟨(), []⟩ (fun _ => 7) =
        (.lua [byteTable [7, 7]], ⟨(), [.send (cpuMemRdPacket 0x8000 2).wire false, .receive 2 [] false]⟩) ∧
    Command.init.run Port.dead ⟨(), []⟩ (fun i => (pInitString ++ [0]).getD i 0) =
        (.init (.ok ()), ⟨(), [.send initEchoPkt.wire false, .receive 4 [] false]⟩) ∧
    waitForHlt Port.dead 1 ⟨(), []⟩ (fun _ => 1) =
        some ⟨(), [.send queryHltPacket.wire false, .receive 1 [] false]⟩ :=
  ⟨rfl, rfl, rfl⟩

end NesDbg
