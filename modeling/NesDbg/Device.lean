import NesDbg.Packet
import Mathlib.Logic.Function.Basic

/-! The device's memories as the memory write packets fill them (spec §3).

This is the receiving side, stated from the wire bytes alone: a CpuMemWr or PpuMemWr packet carries an
address and a count, little-endian, and then the data, whose `k`-th byte the device stores at the address
plus `k` of a 64 KiB space. `Device.replay` stores every write of a stream of packets in order; the other
packets leave the memories as they are. -/

namespace NesDbg

/-- The bytes a memory write packet's wire asks to store, each with its address: the address and count
    fields read little-endian, then the `k`-th data byte at the address plus `k`. -/
def memWrites (w : List UInt8) : List (Nat × UInt8) :=
  let addr := (le16 (w.getD 1 0) (w.getD 2 0)).toNat
  let n := (le16 (w.getD 3 0) (w.getD 4 0)).toNat
  ((w.drop 5).take n).enum.map fun kb => (addr + kb.1, kb.2)

/-- The writes a packet's wire asks for when its opcode is `op`. -/
def writesIn (op : DbgPacketOpCode) (w : List UInt8) : List (Nat × UInt8) :=
  if w.head? = some op.toByte then memWrites w else []

/-- The writes that the packets of opcode `op` in a stream ask for, in order. -/
def writesOf (op : DbgPacketOpCode) (ws : List (List UInt8)) : List (Nat × UInt8) := ws.flatMap (writesIn op)

/-- A 64 KiB memory after storing bytes in order, each at its address modulo `0x10000`. -/
def store (mem : Nat → UInt8) (writes : List (Nat × UInt8)) : Nat → UInt8 :=
  writes.foldl (fun mem w => Function.update mem (w.1 % 0x10000) w.2) mem

/-- The memories of the device. -/
structure Device where
  cpuMem : Nat → UInt8
  ppuMem : Nat → UInt8

/-- The device after it receives a stream of packets. -/
def Device.replay (d : Device) (ws : List (List UInt8)) : Device :=
  ⟨store d.cpuMem (writesOf .cpuMemWr ws), store d.ppuMem (writesOf .ppuMemWr ws)⟩

/-! ### Decoding a write -/

theorem enum_copy_map (p : Ptr) (n base : Nat) :
    (copy p n).enum.map (fun kb => (base + kb.1, kb.2)) = (List.range n).map fun k => (base + k, p k) :=
  List.ext_getElem (by simp) fun i h _ => by simp

/-- A memory write packet's layout asks to store its data from its address on. -/
theorem memWrites_layout (op : UInt8) (addr n : UInt16) (p : Ptr) :
    memWrites (op :: (le16Bytes addr ++ (le16Bytes n ++ copy p n.toNat))) =
      (List.range n.toNat).map fun k => (addr.toNat + k, p k) := by
  simp only [memWrites, le16Bytes, List.cons_append, List.nil_append, List.getD_cons_succ,
    List.getD_cons_zero, List.drop_succ_cons, List.drop_zero, le16_le16Bytes]
  rw [List.take_of_length_le (by simp), enum_copy_map]

theorem writesIn_of_head {op : DbgPacketOpCode} {w : List UInt8} (h : w.head? ≠ some op.toByte) :
    writesIn op w = [] :=
  if_neg h

theorem writesOf_map_wire (op : DbgPacketOpCode) (pkts : List DbgPacket) :
    writesOf op (pkts.map DbgPacket.wire) = pkts.flatMap fun pkt => writesIn op pkt.wire := by
  simp [writesOf, List.flatMap_map, Function.comp_def]

@[simp] theorem writesOf_nil (op : DbgPacketOpCode) : writesOf op [] = [] := rfl

theorem writesOf_append (op : DbgPacketOpCode) (ws vs : List (List UInt8)) :
    writesOf op (ws ++ vs) = writesOf op ws ++ writesOf op vs := by
  simp [writesOf]

/-! ### Storing a run of bytes -/

theorem store_append (mem : Nat → UInt8) (xs ys : List (Nat × UInt8)) :
    store mem (xs ++ ys) = store (store mem xs) ys :=
  List.foldl_append _ _ _ _

theorem store_singleton (mem : Nat → UInt8) (w : Nat × UInt8) :
    store mem [w] = Function.update mem (w.1 % 0x10000) w.2 := rfl

/-- Storing `n` bytes from `base` on, below `0x10000`, sets exactly that window and leaves every other
    address as it was. -/
theorem store_range (mem : Nat → UInt8) (f : Nat → UInt8) {base n : Nat} (h : base + n ≤ 0x10000) (a : Nat) :
    store mem ((List.range n).map fun k => (base + k, f k)) a =
      if base ≤ a ∧ a < base + n then f (a - base) else mem a := by
  induction n with
  | zero => simp only [List.range_zero, List.map_nil, store, List.foldl_nil]; split_ifs <;> first | rfl | omega
  | succ n ih =>
    rw [List.range_succ, List.map_append, store_append, List.map_singleton, store_singleton,
      Nat.mod_eq_of_lt (by omega : base + n < 0x10000), Function.update_apply, ih (by omega)]
    by_cases ha : a = base + n
    · subst ha; simp
    · simp only [ha, if_false]; split_ifs <;> first | rfl | omega

/-- Storing at most `0x10000` bytes from `base` on: the window wraps at `0x10000`, each byte lands at its
    offset from `base` modulo `0x10000`, and every address outside the window keeps its byte. -/
theorem store_range_wrap (mem : Nat → UInt8) (f : Nat → UInt8) {base n : Nat} (hb : base < 0x10000)
    (hn : n ≤ 0x10000) {a : Nat} (ha : a < 0x10000) :
    store mem ((List.range n).map fun k => (base + k, f k)) a =
      if (a + 0x10000 - base) % 0x10000 < n then f ((a + 0x10000 - base) % 0x10000) else mem a := by
  induction n with
  | zero => rfl
  | succ n ih =>
    rw [List.range_succ, List.map_append, store_append, List.map_singleton, store_singleton,
      Function.update_apply, ih (by omega)]
    by_cases h : a = (base + n) % 0x10000
    · rw [if_pos h, if_pos (by omega), show (a + 0x10000 - base) % 0x10000 = n by omega]
    · rw [if_neg h]
      split_ifs <;> first | rfl | omega

/-! ### Replaying a stream -/

@[simp] theorem Device.replay_nil (d : Device) : d.replay [] = d := rfl

theorem Device.replay_append (d : Device) (ws vs : List (List UInt8)) :
    d.replay (ws ++ vs) = (d.replay ws).replay vs := by
  simp only [Device.replay, writesOf_append, store_append]

end NesDbg
