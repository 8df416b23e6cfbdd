import NesDbg.Commands
import NesDbg.Target

/-! The host and a table-following device on one link.

Every packet a command issues is built by one of the constructors (`Command.packet?_construction`), so
the receiver frames it whole and the machine answers it with exactly the bytes the host then reads. On a
synced target every command therefore makes calls that all succeed, leaves the target synced, and shows
what its packet's answer makes of it (`Command.run_target`): the host and the device refine
`Command.onMachine`, the commands at the level of the table. `runCommands_target` carries this over a
whole run of commands. On a halted CPU a run changes the machine exactly as `Machine.replay` decodes the
bytes it sent (`Machine.runCommands_of_halted`), so reads see every earlier write (`memRd_after_run`,
`machine_after_run`) and nothing the CPU would do if it ran shows (`runCommands_halted`). The raw console
shows what the table answers to the packet its text spells (`rawDbgSend_target`). A target that holds
response bytes the host has not read shifts every later answer by them (`runCommands_stale`), and
`WaitForHlt` returns exactly when the machine, run between polls, first reports a halt
(`waitForHlt_target`). -/

namespace NesDbg

/-! ### The packets of the commands -/

/-- `fromRawData` builds an Echo, a CpuMemRd or a CpuMemWr. -/
theorem fromRawData_construction {p : Ptr} {pkt : DbgPacket} (h : fromRawData p = some pkt) :
    ∃ k : Construction, k.build = pkt ∧ k.opcode ≠ .dbgRun ∧ k.opcode ≠ .ppuDisable ∧ k.opcode ≠ .cartSetCfg := by
  unfold fromRawData at h
  split_ifs at h <;> cases h
  · exact ⟨.echo _ _, rfl, nofun, nofun, nofun⟩
  · exact ⟨.cpuMemRd _ _, rfl, nofun, nofun, nofun⟩
  · exact ⟨.cpuMemWr _ _ _, rfl, nofun, nofun, nofun⟩

/-- Every packet a command issues is a constructor's; a command that reads no response issues a packet
    with none, only `DbgRun()` issues a DbgRun packet, and no command disables the PPU or sets the
    cartridge. -/
theorem Command.packet?_construction {cmd : Command} {pkt : DbgPacket} (h : cmd.packet? = some pkt) :
    ∃ k : Construction, k.build = pkt ∧ (cmd.reads = false → k.responseLength = 0) ∧
      (k.opcode = .dbgRun → cmd = .dbgRun) ∧ k.opcode ≠ .ppuDisable ∧ k.opcode ≠ .cartSetCfg := by
  cases cmd with
  | echo args =>
    simp only [packet?, luaEchoPacket] at h; split_ifs at h; cases h
    exact ⟨.echo _ _, rfl, nofun, nofun, nofun, nofun⟩
  | cpuMemRd args =>
    simp only [packet?, luaMemRdPacket] at h; split_ifs at h; cases h
    exact ⟨.cpuMemRd _ _, rfl, nofun, nofun, nofun, nofun⟩
  | ppuMemRd args =>
    simp only [packet?, luaMemRdPacket] at h; split_ifs at h; cases h
    exact ⟨.ppuMemRd _ _, rfl, nofun, nofun, nofun, nofun⟩
  | cpuRegRd args =>
    simp only [packet?, luaCpuRegRdPacket] at h; split_ifs at h; cases h
    exact ⟨.cpuRegRd _, rfl, nofun, nofun, nofun, nofun⟩
  | cpuMemWr args =>
    simp only [packet?, luaMemWrPacket] at h; split_ifs at h; cases h
    exact ⟨.cpuMemWr _ _ _, rfl, fun _ => rfl, nofun, nofun, nofun⟩
  | ppuMemWr args =>
    simp only [packet?, luaMemWrPacket] at h; split_ifs at h; cases h
    exact ⟨.ppuMemWr _ _ _, rfl, fun _ => rfl, nofun, nofun, nofun⟩
  | cpuRegWr args =>
    simp only [packet?, luaCpuRegWrPacket] at h; split_ifs at h; cases h
    exact ⟨.cpuRegWr _ _, rfl, fun _ => rfl, nofun, nofun, nofun⟩
  | dbgHlt => cases h; exact ⟨.dbgHlt, rfl, fun _ => rfl, nofun, nofun, nofun⟩
  | dbgRun => cases h; exact ⟨.dbgRun, rfl, fun _ => rfl, fun _ => rfl, nofun, nofun⟩
  | rawDbgSend heap pInput =>
    obtain ⟨k, hk, hop, hp, hc⟩ := fromRawData_construction (by
      rw [packet?, createObjFromString] at h; split_ifs at h; exact h)
    exact ⟨k, hk, nofun, fun h => absurd h hop, hp, hc⟩
  | init => cases h; exact ⟨.echo _ _, rfl, nofun, nofun, nofun, nofun⟩

/-! ### One command on a synced target -/

section
variable (run : Machine → Machine)

/-- A packet sent to a target with no packet half sent: the call succeeds, the machine executes the packet,
    and its answer queues behind the bytes not yet read. -/
theorem issue_pending_nil {t : Target} (hp : t.pending = []) {pkt : DbgPacket} (hf : pkt.Framed)
    (cs : List Call) :
    issue (Target.port run) ⟨t, cs⟩ pkt =
      ⟨⟨((t.m.advance run).exec pkt.wire).1, [], t.out ++ ((t.m.advance run).exec pkt.wire).2⟩,
        cs ++ [.send pkt.wire true]⟩ := by
  simp [issue, sendData, Target.writeFile_frame run hp hf.frame]

/-- A packet exchanged with a target with no packet half sent: both calls succeed, and the host reads the
    first `ReturnBytesExpected()` bytes of what is queued, the bytes not yet read before the answer. -/
theorem exchange_pending_nil {t : Target} (hp : t.pending = []) {pkt : DbgPacket} (hf : pkt.Framed)
    (cs : List Call) (buf : Ptr) :
    let q := t.out ++ ((t.m.advance run).exec pkt.wire).2
    exchange (Target.port run) ⟨t, cs⟩ pkt buf =
      (overlay (q.take pkt.returnBytesExpected) buf,
        ⟨⟨((t.m.advance run).exec pkt.wire).1, [], q.drop pkt.returnBytesExpected⟩,
          cs ++ [.send pkt.wire true, .receive pkt.returnBytesExpected (q.take pkt.returnBytesExpected) true]⟩) := by
  have hn := hf.answer (t.m.advance run)
  simp only [exchange, issue_pending_nil run hp hf, receiveData, Target.readFile_eq, List.take_take, min_self,
    List.length_take, List.length_append, hn]
  simp

/-- A packet sent to a synced target: the call succeeds, and the machine executes the packet. -/
theorem issue_target {t : Target} (ht : t.Synced) {pkt : DbgPacket} (hf : pkt.Framed) (cs : List Call) :
    issue (Target.port run) ⟨t, cs⟩ pkt =
      ⟨⟨((t.m.advance run).exec pkt.wire).1, [], ((t.m.advance run).exec pkt.wire).2⟩,
        cs ++ [.send pkt.wire true]⟩ := by
  rw [issue_pending_nil run ht.pending hf, ht.out, List.nil_append]

/-- A packet exchanged with a synced target: both calls succeed, the buffer holds the machine's answer,
    and the target is synced again. -/
theorem exchange_target {t : Target} (ht : t.Synced) {pkt : DbgPacket} (hf : pkt.Framed) (cs : List Call)
    (buf : Ptr) :
    exchange (Target.port run) ⟨t, cs⟩ pkt buf =
      (overlay ((t.m.advance run).exec pkt.wire).2 buf,
        ⟨⟨((t.m.advance run).exec pkt.wire).1, [], []⟩,
          cs ++ [.send pkt.wire true, .receive pkt.returnBytesExpected ((t.m.advance run).exec pkt.wire).2 true]⟩) := by
  have hn := hf.answer (t.m.advance run)
  rw [exchange_pending_nil run ht.pending hf, ht.out, List.nil_append, ← hn, List.take_length, List.drop_length]

/-- A command at the level of the table: what it shows, and the machine after its packet. -/
def Command.onMachine (m : Machine) (cmd : Command) : Shown × Machine :=
  match cmd.packet? with
  | none => (cmd.rejected, m)
  | some pkt => (cmd.present ((m.advance run).exec pkt.wire).2, ((m.advance run).exec pkt.wire).1)

/-- On a synced target every command makes its calls, all of which succeed, leaves the target synced, and
    shows what `Command.onMachine` says. -/
theorem Command.run_target (cmd : Command) {t : Target} (ht : t.Synced) (cs : List Call) (junk : Ptr) :
    cmd.run (Target.port run) ⟨t, cs⟩ junk =
      match cmd.packet? with
      | none => (cmd.rejected, ⟨t, cs⟩)
      | some pkt =>
        ((cmd.onMachine run t.m).1, ⟨⟨(cmd.onMachine run t.m).2, [], []⟩,
          cs ++ cmd.calls pkt true ((t.m.advance run).exec pkt.wire).2 true⟩) := by
  rw [Command.run_eq_packet]
  cases hp : cmd.packet? with
  | none => rfl
  | some pkt =>
    obtain ⟨k, rfl, hz, -⟩ := Command.packet?_construction hp
    have hf := k.framed
    have hn := hf.answer (t.m.advance run)
    simp only [Command.onMachine, hp]
    cases hr : cmd.reads
    case true =>
      simp [exchange_target run ht hf, copy_received _ hn, Command.calls, hr]
    case false =>
      have h0 : ((t.m.advance run).exec k.build.wire).2 = [] := by
        rw [← List.length_eq_zero, hn, Construction.returnBytesExpected_build, hz hr]
      simp [issue_target run ht hf, Command.calls, hr, h0, present_of_reads hr]

/-- A call that returned `TRUE`. -/
def Call.succeeded : Call → Bool
  | .send _ ret => ret
  | .receive _ _ ret => ret

/-- One command on a synced target, in the terms a run of commands needs: it shows what
    `Command.onMachine` shows, leaves the target synced on the machine `Command.onMachine` leaves, and
    adds calls that all succeed and send its packet, if it has one. -/
theorem Command.run_target_step (cmd : Command) {t : Target} (ht : t.Synced) (cs : List Call) (junk : Ptr) :
    (cmd.run (Target.port run) ⟨t, cs⟩ junk).1 = (cmd.onMachine run t.m).1 ∧
      (cmd.run (Target.port run) ⟨t, cs⟩ junk).2.st = ⟨(cmd.onMachine run t.m).2, [], []⟩ ∧
      ∃ new, (cmd.run (Target.port run) ⟨t, cs⟩ junk).2.calls = cs ++ new ∧ (∀ c ∈ new, c.succeeded = true) ∧
        sentData new = (cmd.packet?.map DbgPacket.wire).toList := by
  rw [Command.run_target run cmd ht]
  cases hp : cmd.packet? with
  | none =>
    obtain ⟨m, pending, out⟩ := t
    obtain ⟨rfl, rfl⟩ := ht
    exact ⟨by simp [Command.onMachine, hp], by simp [Command.onMachine, hp], [], by simp, by simp, rfl⟩
  | some pkt =>
    refine ⟨rfl, rfl, _, rfl, ?_, Command.sentData_calls ..⟩
    unfold Command.calls
    split <;> simp [Call.succeeded]

end

/-- A device with its memories and registers zero and its CPU halted, host and device in sync. -/
def Target.idle : Target := ⟨⟨⟨fun _ => 0, fun _ => 0⟩, fun _ => 0, true, true, []⟩, [], []⟩

/-! ### Runs of commands -/

variable {σ : Type}

/-- The host running commands one after another on one link, each with what its new receive buffer
    holds: what each shows, and the link after the last. -/
def runCommands (P : Port σ) : List (Command × Ptr) → Link σ → List Shown × Link σ
  | [], l => ([], l)
  | (cmd, junk) :: rest, l =>
    let r := cmd.run P l junk
    let rs := runCommands P rest r.2
    (r.1 :: rs.1, rs.2)

/-- The same commands on the machine. -/
def Machine.runCommands (run : Machine → Machine) : Machine → List Command → List Shown × Machine
  | m, [] => ([], m)
  | m, cmd :: rest =>
    let r := cmd.onMachine run m
    let rs := Machine.runCommands run r.2 rest
    (r.1 :: rs.1, rs.2)

/-- One command in flight at a time, whatever the port does: over any run of commands the calls are one
    block per command that issues a packet, in order. Each block is that packet's send followed, when the
    command reads, by one receive that asks for exactly `ReturnBytesExpected()` bytes, gets at most that
    many, and gets all of them when it returns `TRUE`. A command that issues nothing makes no call. -/
theorem runCommands_calls (P : Port σ) (cmds : List (Command × Ptr)) (l : Link σ) :
    ∃ blocks : List (List Call), (runCommands P cmds l).2.calls = l.calls ++ blocks.flatten ∧
      List.Forall₂ (fun (cp : Command × DbgPacket) b => ∃ sret got rret,
          got.length ≤ cp.2.returnBytesExpected ∧ (rret = true → got.length = cp.2.returnBytesExpected) ∧
          b = cp.1.calls cp.2 sret got rret)
        ((cmds.map Prod.fst).filterMap fun cmd => cmd.packet?.map (cmd, ·)) blocks := by
  induction cmds generalizing l with
  | nil => exact ⟨[], by simp [runCommands], .nil⟩
  | cons c cmds ih =>
    obtain ⟨cmd, junk⟩ := c
    rcases Command.run_eq P l junk cmd with ⟨hp, hr⟩ | ⟨pkt, sret, got, rret, st, hp, hle, hfull, hr⟩
    · obtain ⟨blocks, hc, hf⟩ := ih l
      exact ⟨blocks, by simp only [runCommands, hr, hc], by simpa [List.filterMap_cons, hp] using hf⟩
    · obtain ⟨blocks, hc, hf⟩ := ih ⟨st, l.calls ++ cmd.calls pkt sret got rret⟩
      refine ⟨cmd.calls pkt sret got rret :: blocks, by simp [runCommands, hr, hc], ?_⟩
      simpa [List.filterMap_cons, hp] using List.Forall₂.cons (a := (cmd, pkt)) ⟨sret, got, rret, hle, hfull, rfl⟩ hf

section
variable (run : Machine → Machine)

/-- The run lemma of a synced target, by induction over the commands from `Command.run_target_step`. -/
theorem runCommands_sync (cmds : List (Command × Ptr)) {t : Target} (ht : t.Synced) (cs : List Call) :
    let r := runCommands (Target.port run) cmds ⟨t, cs⟩
    let a := t.m.runCommands run (cmds.map Prod.fst)
    r.1 = a.1 ∧ r.2.st = ⟨a.2, [], []⟩ ∧
      ∃ new, r.2.calls = cs ++ new ∧ (∀ c ∈ new, c.succeeded = true) ∧
        sentData new = ((cmds.map Prod.fst).filterMap Command.packet?).map DbgPacket.wire := by
  induction cmds generalizing t cs with
  | nil =>
    obtain ⟨m, pending, out⟩ := t
    obtain ⟨rfl, rfl⟩ := ht
    exact ⟨rfl, rfl, [], by simp [runCommands], by simp, rfl⟩
  | cons c cmds ih =>
    obtain ⟨cmd, junk⟩ := c
    obtain ⟨h1, h2, new, hc, hs, hd⟩ := Command.run_target_step run cmd ht cs junk
    have hl : (cmd.run (Target.port run) ⟨t, cs⟩ junk).2 =
        ⟨⟨(cmd.onMachine run t.m).2, [], []⟩, cs ++ new⟩ := by
      rw [← h2, ← hc]
    obtain ⟨i1, i2, new', ic, is, id⟩ := ih (t := ⟨(cmd.onMachine run t.m).2, [], []⟩) ⟨rfl, rfl⟩ (cs ++ new)
    simp only [runCommands, Machine.runCommands, List.map_cons, hl, h1, i1, i2, true_and]
    refine ⟨new ++ new', by rw [ic, List.append_assoc], fun c hc' => ?_, ?_⟩
    · rcases List.mem_append.mp hc' with h | h
      exacts [hs c h, is c h]
    · rw [sentData_append, hd, id]
      cases hp : cmd.packet? <;> simp [List.filterMap_cons, hp]

/-- Over any run of commands from a synced target, the host shows what the commands show on the machine,
    the target ends synced on the machine they leave, every `SendData` and `ReceiveData` returns `TRUE`,
    and the bytes sent are the packets of the commands, in order. -/
theorem runCommands_target (cmds : List (Command × Ptr)) {t : Target} (ht : t.Synced) (cs : List Call) :
    let r := runCommands (Target.port run) cmds ⟨t, cs⟩
    let a := t.m.runCommands run (cmds.map Prod.fst)
    r.1 = a.1 ∧ r.2.st = ⟨a.2, [], []⟩ ∧
      ∃ new, r.2.calls = cs ++ new ∧ (∀ c ∈ new, c.succeeded = true) ∧
        sentData new = ((cmds.map Prod.fst).filterMap Command.packet?).map DbgPacket.wire :=
  runCommands_sync run cmds ht cs

theorem runCommands_target_regRd :
    Target.idle.Synced ∧
      (runCommands (Target.port id) [(.cpuRegRd [.number 0], fun _ => 0)] ⟨Target.idle, []⟩).1 = [.lua [.number 0]] :=
  ⟨⟨rfl, rfl⟩, (runCommands_target id [(.cpuRegRd [.number 0], fun _ => 0)] (t := Target.idle) ⟨rfl, rfl⟩ []).1⟩

/-- A command other than `DbgRun()` on a halted CPU changes the machine exactly as `Machine.replay`
    decodes its packet. -/
theorem Command.onMachine_replay {cmd : Command} (hr : cmd ≠ .dbgRun) {m : Machine} (hh : m.halted = true) :
    (cmd.onMachine run m).2 = m.replay (cmd.packet?.map DbgPacket.wire).toList := by
  unfold Command.onMachine
  cases hp : cmd.packet? with
  | none => rfl
  | some pkt =>
    obtain ⟨k, rfl, -, hk, hpd, hcs⟩ := Command.packet?_construction hp
    rw [Machine.advance_of_halted hh]
    refine Machine.exec_of_halted hh fun op hop => ?_
    rw [Construction.wire_build, Construction.layout, List.head?_cons, Option.some_bind,
      DbgPacketOpCode.ofByte?_toByte, Option.some.injEq] at hop
    subst hop
    exact ⟨fun h => hr (hk h), hpd, hcs⟩

/-- On a halted CPU, a run of commands none of which is `DbgRun()` changes the machine exactly as
    `Machine.replay` decodes the packets they issue, in order. -/
theorem Machine.runCommands_of_halted (cmds : List Command) {m : Machine} (hh : m.halted = true)
    (hr : ∀ c ∈ cmds, c ≠ .dbgRun) :
    (m.runCommands run cmds).2 = m.replay ((cmds.filterMap Command.packet?).map DbgPacket.wire) := by
  induction cmds generalizing m with
  | nil => rfl
  | cons cmd cmds ih =>
    have h1 := Command.onMachine_replay run (hr cmd (List.mem_cons_self ..)) hh
    have hh' : (cmd.onMachine run m).2.halted = true := by rw [h1]; exact hh
    rw [Machine.runCommands, ih hh' fun c hc => hr c (List.mem_cons_of_mem cmd hc), h1, ← Machine.replay_append]
    cases hp : cmd.packet? <;> simp [List.filterMap_cons, hp]

/-- A run of commands without `DbgRun()` on a synced target whose CPU is halted leaves the target synced
    on the machine `Machine.replay` makes of the bytes the run sent. -/
theorem runCommands_halted_link (pre : List (Command × Ptr)) {t : Target} (ht : t.Synced)
    (hh : t.m.halted = true) (hr : ∀ c ∈ pre, c.1 ≠ .dbgRun) (cs : List Call) :
    ∃ new, (runCommands (Target.port run) pre ⟨t, cs⟩).2 = ⟨⟨t.m.replay (sentData new), [], []⟩, cs ++ new⟩ := by
  obtain ⟨-, hst, new, hc, -, hs⟩ := runCommands_sync run pre ht cs
  refine ⟨new, ?_⟩
  rw [hs, ← Machine.runCommands_of_halted run _ hh (by simpa using fun c junk h => hr (c, junk) h), ← hst, ← hc]

/-- Reads see every earlier write. After any run of commands on a halted CPU that runs no `DbgRun()`,
    `CpuMemRd(address, numBytes)` and `PpuMemRd(address, numBytes)`, both numbers through
    `static_cast<USHORT>`, return the `numBytes` bytes from `address` on, modulo `0x10000`, of the device's
    memories with every write the run sent stored in order, whether `CpuMemWr`, `PpuMemWr` or the raw
    console sent it. -/
theorem memRd_after_run (pre : List (Command × Ptr)) {t : Target} (ht : t.Synced) (hh : t.m.halted = true)
    (hr : ∀ c ∈ pre, c.1 ≠ .dbgRun) (cs : List Call) (args : List LuaValue) (junk : Ptr)
    (h1 : argIsNumber args 1 = true) (h2 : argIsNumber args 2 = true) :
    let l := (runCommands (Target.port run) pre ⟨t, cs⟩).2
    let d := t.m.mem.replay (sentData (l.calls.drop cs.length))
    ((Command.cpuMemRd args).run (Target.port run) l junk).1 =
        .lua [byteTable (readWindow d.cpuMem (toUShort (argToNumber args 1)).toNat
          (toUShort (argToNumber args 2)).toNat)] ∧
      ((Command.ppuMemRd args).run (Target.port run) l junk).1 =
        .lua [byteTable (readWindow d.ppuMem (toUShort (argToNumber args 1)).toNat
          (toUShort (argToNumber args 2)).toNat)] := by
  intro l d
  obtain ⟨-, hst, new, hc, -, hs⟩ := runCommands_sync run pre ht cs
  obtain ⟨new, hl⟩ := runCommands_halted_link run pre ht hh hr cs
  have hd : d = t.m.mem.replay (sentData new) := by simp only [d, l, hl, List.drop_left]
  rw [hd, show l = _ from hl]
  constructor <;>
  · rw [Command.run_target run _ ⟨rfl, rfl⟩]
    simp [Command.packet?, Command.onMachine, luaMemRdPacket, h1, h2, Machine.replay, Machine.advance_of_halted, hh,
      Command.present]

theorem memRd_after_run_write :
    Target.idle.Synced ∧ Target.idle.m.halted = true ∧
      (∀ c ∈ [((Command.cpuMemWr [.number 0x10, .number 1, .table [.number 7]], fun _ => 0) : Command × Ptr)],
        c.1 ≠ .dbgRun) ∧
      argIsNumber [.string "0x10", .number 1] 1 = true ∧ argIsNumber [.string "0x10", .number 1] 2 = true ∧
      ((Command.cpuMemRd [.string "0x10", .number 1]).run (Target.port id)
        (runCommands (Target.port id) [(.cpuMemWr [.number 0x10, .number 1, .table [.number 7]], fun _ => 0)]
          ⟨Target.idle, []⟩).2 (fun _ => 0)).1 = .lua [byteTable [7]] := by
  have hr : ∀ c ∈ [((Command.cpuMemWr [.number 0x10, .number 1, .table [.number 7]], fun _ => 0) : Command × Ptr)],
      c.1 ≠ .dbgRun := by simp
  refine ⟨⟨rfl, rfl⟩, rfl, hr, rfl, rfl, ?_⟩
  rw [(memRd_after_run id _ ⟨rfl, rfl⟩ rfl hr [] [.string "0x10", .number 1] (fun _ => 0) rfl rfl).1]
  rfl

/-! ### A halted CPU -/

/-- On a halted CPU a command does not depend on what the CPU would do if it ran. -/
theorem Command.run_congr_halted (run₁ run₂ : Machine → Machine) (cmd : Command) {t : Target} (ht : t.Synced)
    (hh : t.m.halted = true) (cs : List Call) (junk : Ptr) :
    cmd.run (Target.port run₁) ⟨t, cs⟩ junk = cmd.run (Target.port run₂) ⟨t, cs⟩ junk := by
  rw [Command.run_target run₁ cmd ht, Command.run_target run₂ cmd ht]
  simp only [Command.onMachine, Machine.advance_of_halted hh]

/-- What a halted CPU would do never shows: from a synced target whose CPU is halted, every run of
    commands without `DbgRun()` shows the same values, makes the same calls and leaves the same target,
    for every two behaviours of the CPU when it runs. -/
theorem runCommands_halted (run₁ run₂ : Machine → Machine) (cmds : List (Command × Ptr)) {t : Target}
    (ht : t.Synced) (hh : t.m.halted = true) (hr : ∀ c ∈ cmds, c.1 ≠ .dbgRun) (cs : List Call) :
    runCommands (Target.port run₁) cmds ⟨t, cs⟩ = runCommands (Target.port run₂) cmds ⟨t, cs⟩ := by
  induction cmds generalizing t cs with
  | nil => rfl
  | cons c cmds ih =>
    obtain ⟨cmd, junk⟩ := c
    obtain ⟨-, h2, new, hc, -⟩ := Command.run_target_step run₁ cmd ht cs junk
    have hl : (cmd.run (Target.port run₁) ⟨t, cs⟩ junk).2 = ⟨⟨(cmd.onMachine run₁ t.m).2, [], []⟩, cs ++ new⟩ := by
      rw [← h2, ← hc]
    have hh' : (cmd.onMachine run₁ t.m).2.halted = true := by
      rw [Command.onMachine_replay run₁ (hr (cmd, junk) (List.mem_cons_self ..)) hh]; exact hh
    simp only [runCommands, ← Command.run_congr_halted run₁ run₂ cmd ht hh cs junk, hl,
      ih (t := ⟨_, [], []⟩) ⟨rfl, rfl⟩ hh' (fun c h => hr c (List.mem_cons_of_mem _ h))]

/-- A CPU that would clear every register if it ran changes nothing a `CpuRegRd(0)` on a halted CPU
    shows. -/
theorem runCommands_halted_regRd :
    Target.idle.Synced ∧ Target.idle.m.halted = true ∧
      (∀ c ∈ [((Command.cpuRegRd [.number 0], fun _ => 0) : Command × Ptr)], c.1 ≠ .dbgRun) ∧
      runCommands (Target.port id) [(.cpuRegRd [.number 0], fun _ => 0)] ⟨Target.idle, []⟩ =
        runCommands (Target.port fun m => { m with regs := fun _ => 0xFF }) [(.cpuRegRd [.number 0], fun _ => 0)]
          ⟨Target.idle, []⟩ := by
  have hr : ∀ c ∈ [((Command.cpuRegRd [.number 0], fun _ => 0) : Command × Ptr)], c.1 ≠ .dbgRun := by simp
  exact ⟨⟨rfl, rfl⟩, rfl, hr, runCommands_halted id _ _ ⟨rfl, rfl⟩ rfl hr []⟩

/-- Reads see every earlier write, registers included. After any run of commands on a synced target
    whose CPU is halted, none of them `DbgRun()`, the target is synced on the machine that the bytes the
    run sent make of the one before (`Machine.replay`): every memory write stored in order and every
    CpuRegWr value in its register, the CPU still halted, the PPU and the cartridge as they were.
    `CpuRegRd(regSel)` then returns the register that the selector's `static_cast<UINT>` names there, modulo
    `0x100`. -/
theorem machine_after_run (pre : List (Command × Ptr)) {t : Target} (ht : t.Synced) (hh : t.m.halted = true)
    (hr : ∀ c ∈ pre, c.1 ≠ .dbgRun) (cs : List Call) (args : List LuaValue) (junk : Ptr)
    (h1 : argIsNumber args 1 = true) :
    let l := (runCommands (Target.port run) pre ⟨t, cs⟩).2
    let ws := sentData (l.calls.drop cs.length)
    l.st = ⟨t.m.replay ws, [], []⟩ ∧
      ((Command.cpuRegRd args).run (Target.port run) l junk).1 =
        .lua [.number (regReplay t.m.regs ws (toUInt (argToNumber args 1) % 256)).toNat] := by
  intro l ws
  obtain ⟨new, hl⟩ := runCommands_halted_link run pre ht hh hr cs
  have hws : ws = sentData new := by simp only [ws, l, hl, List.drop_left]
  rw [hws, show l = _ from hl]
  refine ⟨rfl, ?_⟩
  rw [Command.run_target run _ ⟨rfl, rfl⟩]
  simp [Command.packet?, luaCpuRegRdPacket, h1, Command.onMachine, Command.present, Machine.replay,
    Machine.advance_of_halted, hh, toNat_regSel]

/-- `CpuRegWr(2, 0x42)` on a halted CPU, then `CpuRegRd(2)`, returns `0x42`. -/
theorem machine_after_run_regWr :
    Target.idle.Synced ∧ Target.idle.m.halted = true ∧
      (∀ c ∈ [((Command.cpuRegWr [.number 2, .number 0x42], fun _ => 0) : Command × Ptr)], c.1 ≠ .dbgRun) ∧
      argIsNumber [.number 2] 1 = true ∧
      ((Command.cpuRegRd [.number 2]).run (Target.port id)
        (runCommands (Target.port id) [(.cpuRegWr [.number 2, .number 0x42], fun _ => 0)] ⟨Target.idle, []⟩).2
        (fun _ => 0)).1 = .lua [.number 0x42] := by
  have hr : ∀ c ∈ [((Command.cpuRegWr [.number 2, .number 0x42], fun _ => 0) : Command × Ptr)],
      c.1 ≠ .dbgRun := by simp
  refine ⟨⟨rfl, rfl⟩, rfl, hr, rfl, ?_⟩
  rw [(machine_after_run id _ ⟨rfl, rfl⟩ rfl hr [] [.number 2] (fun _ => 0) rfl).2]
  rfl

/-! ### What the callables return -/

/-- On a synced target, whatever the device holds and the CPU does: `Echo(numBytes, data)` returns the
    bytes it sent, the entries of `data` at keys `1..numBytes` through `static_cast<UINT>` modulo `0x100`;
    `CpuRegRd(regSel)` returns the register that the selector's `static_cast<UINT>` names modulo `0x100`,
    as the CPU has left it; and the handshake of `SerialComm::Init`
    finds the device connected. -/
theorem scriptCallables_target {t : Target} (ht : t.Synced) (cs : List Call) (junk : Ptr)
    (args : List LuaValue) :
    (argIsNumber args 1 = true → argIsTable args 2 = true →
      ((Command.echo args).run (Target.port run) ⟨t, cs⟩ junk).1 =
        .lua [byteTable (tableBytes ((arg args 2).getD .nil) (toUShort (argToNumber args 1)).toNat)]) ∧
    (argIsNumber args 1 = true →
      ((Command.cpuRegRd args).run (Target.port run) ⟨t, cs⟩ junk).1 =
        .lua [.number ((t.m.advance run).regs (toUInt (argToNumber args 1) % 256)).toNat]) ∧
    (Command.init.run (Target.port run) ⟨t, cs⟩ junk).1 = .init (.ok ()) := by
  refine ⟨fun h1 h2 => ?_, fun h1 => ?_, ?_⟩ <;> rw [Command.run_target run _ ht]
  · simp [Command.packet?, luaEchoPacket, h1, h2, Command.onMachine, Command.present, copy_argBytes]
  · simp [Command.packet?, luaCpuRegRdPacket, h1, Command.onMachine, Command.present, toNat_regSel]
  · simp only [Command.packet?, Command.onMachine, Command.present, initEchoPkt, Machine.exec_echoPacket]
    rfl

theorem scriptCallables_target_idle :
    Target.idle.Synced ∧
      ((Command.echo [.number 2, .table [.number 0x4E, .string "0x145"]]).run (Target.port id) ⟨Target.idle, []⟩
        (fun _ => 0)).1 = .lua [byteTable [0x4E, 0x45]] := by
  refine ⟨⟨rfl, rfl⟩, ?_⟩
  rw [(scriptCallables_target id (t := Target.idle) ⟨rfl, rfl⟩ [] (fun _ => 0)
    [.number 2, .table [.number 0x4E, .string "0x145"]]).1 rfl rfl]
  rfl

/-! ### The raw console -/

/-- The raw console on a synced target, whatever the device holds and the CPU does (`m₀` the machine as
    the packet finds it), for every text typed into the input box: text that spells an Echo packet shows
    the payload typed after its three header bytes; text that spells a CpuMemRd packet shows the CPU
    memory window it names; text that spells a CpuMemWr packet shows nothing and stores its payload; text
    that does not decode shows "Invalid data." and changes neither the target nor the calls. Every packet
    leaves the target synced. -/
theorem rawDbgSend_target {t : Target} (ht : t.Synced) (cs : List Call) (heap junk : Ptr) (text : List TChar) :
    let m₀ := t.m.advance run
    let r := (Command.rawDbgSend heap text).run (Target.port run) ⟨t, cs⟩ junk
    (∀ (p : Ptr) (n : UInt16), HexText text (echoPacket p n).wire →
      r.1 = .dlg (.setText (renderOutput (copy p n.toNat))) ∧ r.2.st = ⟨m₀, [], []⟩) ∧
    (∀ addr n : UInt16, HexText text (cpuMemRdPacket addr n).wire →
      r.1 = .dlg (.setText (renderOutput (readWindow m₀.mem.cpuMem addr.toNat n.toNat))) ∧
        r.2.st = ⟨m₀, [], []⟩) ∧
    (∀ (addr n : UInt16) (p : Ptr), HexText text (cpuMemWrPacket addr n p).wire →
      r.1 = .dlg (.setText (renderOutput [])) ∧
        r.2.st = ⟨{ m₀ with mem := { m₀.mem with
          cpuMem := store m₀.mem.cpuMem ((List.range n.toNat).map fun k => (addr.toNat + k, p k)) } }, [], []⟩) ∧
    (createObjFromString heap text = none → r = (.dlg (.messageBox "Invalid data."), ⟨t, cs⟩)) := by
  intro m₀ r
  obtain ⟨h1, h2, -⟩ := Command.run_target_step run (.rawDbgSend heap text) ht cs junk
  have hon : ∀ k : Construction, createObjFromString heap text = some k.build →
      (Command.rawDbgSend heap text).onMachine run t.m =
        (.dlg (.setText (renderOutput (k.effect m₀).2)), (k.effect m₀).1) := by
    intro k hk
    simp only [Command.onMachine, Command.packet?, hk, Construction.exec_build, Command.present]
  have hshow : ∀ k : Construction, createObjFromString heap text = some k.build →
      r.1 = .dlg (.setText (renderOutput (k.effect m₀).2)) ∧ r.2.st = ⟨(k.effect m₀).1, [], []⟩ := by
    intro k hk
    rw [hon k hk] at h1 h2
    exact ⟨h1, h2⟩
  refine ⟨fun p n h => hshow (.echo p n) ?_, fun a n h => hshow (.cpuMemRd a n) ?_,
    fun a n p h => hshow (.cpuMemWr a n p) ?_, fun h => ?_⟩
  · exact (createObjFromString_of_hexText h).trans (fromRawData_echo heap p n)
  · exact (createObjFromString_of_hexText h).trans (fromRawData_cpuMemRd heap a n)
  · exact (createObjFromString_of_hexText h).trans (fromRawData_cpuMemWr heap p a n)
  · show (Command.rawDbgSend heap text).run (Target.port run) ⟨t, cs⟩ junk = _
    rw [Command.run_target run _ ht]
    simp only [Command.packet?, h, Command.rejected]

/-- Typing an Echo of "NE" into the console shows "4E 45 ". -/
theorem rawDbgSend_target_echo :
    Target.idle.Synced ∧
      ((Command.rawDbgSend (fun _ => 0) (tstr "00 02 00 4E 45")).run (Target.port id) ⟨Target.idle, []⟩
        (fun _ => 0)).1 = .dlg (.setText (renderOutput [0x4E, 0x45])) :=
  ⟨⟨rfl, rfl⟩, ((rawDbgSend_target id (t := Target.idle) ⟨rfl, rfl⟩ [] (fun _ => 0) (fun _ => 0)
    (tstr "00 02 00 4E 45")).1 (fun i => [0x4E, 0x45].getD i 0) 2 (by decide)).1⟩

/-! ### Unread response bytes -/

/-- One command on a target with no packet half sent and the bytes `t.out` not yet read: it leaves no
    packet half sent and as many bytes unread, and a command that reads shows the first
    `ReturnBytesExpected()` of the unread bytes followed by its own answer. -/
theorem Command.run_stale (cmd : Command) {t : Target} (hp : t.pending = []) (cs : List Call) (junk : Ptr) :
    (cmd.run (Target.port run) ⟨t, cs⟩ junk).2.st.pending = [] ∧
      (cmd.run (Target.port run) ⟨t, cs⟩ junk).2.st.out.length = t.out.length ∧
      ∀ pkt, cmd.packet? = some pkt → cmd.reads = true →
        (cmd.run (Target.port run) ⟨t, cs⟩ junk).1 =
          cmd.present ((t.out ++ ((t.m.advance run).exec pkt.wire).2).take pkt.returnBytesExpected) := by
  rw [Command.run_eq_packet]
  cases hpk : cmd.packet? with
  | none => exact ⟨hp, rfl, nofun⟩
  | some pkt =>
    obtain ⟨k, rfl, hz, -⟩ := Command.packet?_construction hpk
    have hf := k.framed
    have hn := hf.answer (t.m.advance run)
    cases hr : cmd.reads
    case true =>
      simp only [if_true, exchange_pending_nil run hp hf]
      refine ⟨trivial, by simp [hn], fun pkt' h _ => ?_⟩
      cases Option.some.inj h
      rw [copy_received _ (by simp [hn])]
    case false =>
      have h0 : ((t.m.advance run).exec k.build.wire).2 = [] := by
        rw [← List.length_eq_zero, hn, Construction.returnBytesExpected_build, hz hr]
      simp [issue_pending_nil run hp hf, h0]

/-- The host never drains a response byte it did not ask for. From a target with no packet half sent and
    some response bytes unread, as a read cut short leaves them, every run of commands ends with no packet
    half sent and exactly as many bytes unread, and the next command that reads shows the first
    `ReturnBytesExpected()` of the unread bytes before its own answer. -/
theorem runCommands_stale (cmds : List (Command × Ptr)) {t : Target} (hp : t.pending = []) (cs : List Call) :
    let l := (runCommands (Target.port run) cmds ⟨t, cs⟩).2
    l.st.pending = [] ∧ l.st.out.length = t.out.length ∧
      ∀ (cmd : Command) (junk : Ptr) (pkt : DbgPacket), cmd.packet? = some pkt → cmd.reads = true →
        (cmd.run (Target.port run) l junk).1 =
          cmd.present ((l.st.out ++ ((l.st.m.advance run).exec pkt.wire).2).take pkt.returnBytesExpected) := by
  intro l
  have hrun : l.st.pending = [] ∧ l.st.out.length = t.out.length := by
    induction cmds generalizing t cs with
    | nil => exact ⟨hp, rfl⟩
    | cons c cmds ih =>
      obtain ⟨cmd, junk⟩ := c
      obtain ⟨h1, h2, -⟩ := Command.run_stale run cmd hp cs junk
      obtain ⟨i1, i2⟩ := ih (t := (cmd.run (Target.port run) ⟨t, cs⟩ junk).2.st) h1 _
      exact ⟨i1, i2.trans h2⟩
  exact ⟨hrun.1, hrun.2, fun cmd junk pkt h hr => (Command.run_stale run cmd hrun.1 l.calls junk).2.2 pkt h hr⟩

/-- One byte left unread: `CpuRegRd(0)` shows it instead of register 0. -/
theorem runCommands_stale_regRd :
    ({ Target.idle with out := [0xAA] } : Target).pending = [] ∧
      ((Command.cpuRegRd [.number 0]).run (Target.port id)
        (runCommands (Target.port id) [] ⟨{ Target.idle with out := [0xAA] }, []⟩).2 (fun _ => 0)).1 =
        .lua [.number 0xAA] := by
  refine ⟨rfl, ?_⟩
  rw [(runCommands_stale id [] (t := { Target.idle with out := [0xAA] }) rfl []).2.2 (.cpuRegRd [.number 0])
    (fun _ => 0) (cpuRegRdPacket ⟨0⟩) rfl rfl]
  rfl

/-! ### Waiting for a halt -/

/-- `LuaWaitForHlt` at the level of the machine, within `fuel` polls: the number of polls that found the
    CPU running, and the machine at the poll that found it halted. -/
def Machine.waitForHlt : Nat → Machine → Option (Nat × Machine)
  | 0, _ => none
  | fuel + 1, m =>
    if (m.advance run).halted then some (0, m.advance run)
    else (Machine.waitForHlt fuel (m.advance run)).map fun r => (r.1 + 1, r.2)

/-- One poll of a synced target: the answer is whether the CPU, after its work, is halted. -/
theorem poll_target {t : Target} (ht : t.Synced) (cs : List Call) (buf : Ptr) :
    exchange (Target.port run) ⟨t, cs⟩ queryHltPacket buf =
      (overlay [if (t.m.advance run).halted then 1 else 0] buf,
        ⟨⟨t.m.advance run, [], []⟩, cs ++ pollCalls (true, [if (t.m.advance run).halted then 1 else 0], true)⟩) := by
  rw [exchange_target run ht (show queryHltPacket.Framed from Construction.framed .queryHlt),
    Machine.exec_queryHltPacket]
  rfl

/-- The polling loop on a synced target is the machine's: it returns at the first poll that finds the CPU
    halted, with every earlier poll answered 0 and that one 1, and leaves the target synced. -/
theorem waitForHlt_eq_machine (fuel : Nat) {t : Target} (ht : t.Synced) (cs : List Call) (buf : Ptr) :
    waitForHlt (Target.port run) fuel ⟨t, cs⟩ buf =
      (Machine.waitForHlt run fuel t.m).map fun r =>
        ⟨⟨r.2, [], []⟩, cs ++ (List.replicate r.1 (pollCalls (true, [0], true))).flatten ++
          pollCalls (true, [1], true)⟩ := by
  induction fuel generalizing t cs buf with
  | zero => rfl
  | succ fuel ih =>
    simp only [waitForHlt, poll_target run ht, Machine.waitForHlt]
    cases hh : (t.m.advance run).halted
    case true => simp
    case false =>
      simp only [overlay_cons_zero, if_true, Bool.false_eq_true, if_false,
        ih (t := ⟨t.m.advance run, [], []⟩) ⟨rfl, rfl⟩, Option.map_map]
      congr 1
      funext r
      simp [List.replicate_succ, List.append_assoc]

/-- The machine's loop returns `k` and `m'` exactly when the CPU, doing its work once per poll, is first
    found halted at poll `k`, within `fuel` polls; `m'` is the machine then. -/
theorem Machine.waitForHlt_eq_some (fuel : Nat) (m : Machine) (k : Nat) (m' : Machine) :
    Machine.waitForHlt run fuel m = some (k, m') ↔
      k < fuel ∧ (∀ j < k, ((Machine.advance run)^[j + 1] m).halted = false) ∧
        ((Machine.advance run)^[k + 1] m).halted = true ∧ m' = (Machine.advance run)^[k + 1] m := by
  induction fuel generalizing m k m' with
  | zero => simp [Machine.waitForHlt]
  | succ fuel ih =>
    simp only [Machine.waitForHlt]
    cases hh : (m.advance run).halted
    case true =>
      cases k with
      | zero => simp [hh, @eq_comm _ m']
      | succ k =>
        simp only [if_true, Option.some.injEq, Prod.mk.injEq, Nat.zero_ne_add_one, false_and, false_iff]
        rintro ⟨-, hj, -⟩
        simpa [hh] using hj 0 (Nat.succ_pos k)
    case false =>
      cases k with
      | zero => simp [hh]
      | succ k =>
        simp only [Bool.false_eq_true, if_false, Option.map_eq_some', Prod.mk.injEq, Nat.add_right_cancel_iff]
        constructor
        · rintro ⟨⟨k', m''⟩, h, rfl, rfl⟩
          obtain ⟨hk, hj, hh', rfl⟩ := (ih _ _ _).mp h
          refine ⟨by omega, fun j hj' => ?_, hh', rfl⟩
          cases j with
          | zero => exact hh
          | succ j => exact hj j (by omega)
        · rintro ⟨hk, hj, hh', rfl⟩
          exact ⟨(k, _), (ih _ _ _).mpr ⟨by omega, fun j hj' => hj (j + 1) (by omega), hh', rfl⟩, rfl, rfl⟩

/-- `WaitForHlt()` on a synced target returns exactly when the CPU, doing its work between polls, is
    halted at one of the polls, at the first such poll: after `k` polls answered 0 and one answered 1, all
    of whose calls succeeded, with the target synced on the machine as the CPU left it. While the CPU keeps
    running it never returns. -/
theorem waitForHlt_target (fuel : Nat) {t : Target} (ht : t.Synced) (cs : List Call) (buf : Ptr)
    (l' : Link Target) :
    waitForHlt (Target.port run) fuel ⟨t, cs⟩ buf = some l' ↔
      ∃ k < fuel, (∀ j < k, ((Machine.advance run)^[j + 1] t.m).halted = false) ∧
        ((Machine.advance run)^[k + 1] t.m).halted = true ∧
        l' = ⟨⟨(Machine.advance run)^[k + 1] t.m, [], []⟩,
          cs ++ (List.replicate k (pollCalls (true, [0], true))).flatten ++ pollCalls (true, [1], true)⟩ := by
  rw [waitForHlt_eq_machine run fuel ht, Option.map_eq_some']
  constructor
  · rintro ⟨⟨k, m'⟩, h, rfl⟩
    obtain ⟨hk, hj, hh, rfl⟩ := (Machine.waitForHlt_eq_some run fuel t.m k m').mp h
    exact ⟨k, hk, hj, hh, rfl⟩
  · rintro ⟨k, hk, hj, hh, rfl⟩
    exact ⟨(k, _), (Machine.waitForHlt_eq_some run fuel t.m k _).mpr ⟨hk, hj, hh, rfl⟩, rfl⟩

theorem waitForHlt_target_first_poll :
    (⟨{ Target.idle.m with halted := false }, [], []⟩ : Target).Synced ∧
      waitForHlt (Target.port fun m => { m with halted := true }) 3 ⟨⟨{ Target.idle.m with halted := false }, [], []⟩, []⟩
        (fun _ => 0) = some ⟨⟨Target.idle.m, [], []⟩, [] ++ [] ++ pollCalls (true, [1], true)⟩ :=
  ⟨⟨rfl, rfl⟩, (waitForHlt_target _ 3 ⟨rfl, rfl⟩ [] (fun _ => 0) _).mpr ⟨0, by decide, nofun, rfl, rfl⟩⟩

end

end NesDbg
