import Mathlib.Data.List.Basic

/-! Machine words of the host debugger (`sw/src`).

A `BYTE` is a `UInt8` and a `USHORT` a `UInt16`. A `TCHAR` is a code unit of the `_UNICODE` build, a
`UInt16`; `static_cast<BYTE>` keeps its low eight bits, and the code units of the ANSI build are those
below `0x100`, on which that cast changes nothing. A `const BYTE*` argument is the byte at each offset
from the pointer.

The packets store a `USHORT` with `*reinterpret_cast<USHORT*>(&p[k]) = n` on a little-endian host:
`le16Bytes n` is what the store leaves in `p[k]`, `p[k+1]`, and `le16` what the matching load reads. -/

namespace NesDbg

/-- A `TCHAR` code unit. -/
abbrev TChar := UInt16

/-- A `const BYTE*`: the byte at each offset from the pointer. -/
abbrev Ptr := Nat → UInt8

/-! ### Conversions -/

theorem toNat_byte (m : Nat) : (UInt8.ofNat m).toNat = m % 256 := BitVec.toNat_ofNat m 8

theorem toNat_word (m : Nat) : (UInt16.ofNat m).toNat = m % 65536 := BitVec.toNat_ofNat m 16

theorem byte_lt (b : UInt8) : b.toNat < 256 := b.toNat_lt_size

theorem word_lt (n : UInt16) : n.toNat < 65536 := n.toNat_lt_size

theorem byte_eq_ofNat (b : UInt8) : b = UInt8.ofNat b.toNat :=
  UInt8.toNat.inj (by rw [toNat_byte, Nat.mod_eq_of_lt (byte_lt b)])

theorem toNat_word_byte (b : UInt8) : (UInt16.ofNat b.toNat).toNat = b.toNat := by
  rw [toNat_word]
  have := byte_lt b
  omega

/-- `static_cast<BYTE>` of a code unit keeps its low eight bits. -/
theorem toNat_toUInt8 (c : UInt16) : c.toUInt8.toNat = c.toNat % 256 := toNat_byte c.toNat

theorem byte_le_iff (a b : UInt8) : a ≤ b ↔ a.toNat ≤ b.toNat := Iff.rfl

theorem byte_eq_iff (a b : UInt8) : a = b ↔ a.toNat = b.toNat := ⟨congrArg _, UInt8.toNat.inj⟩

theorem toNat_add_byte (a b : UInt8) : (a + b).toNat = (a.toNat + b.toNat) % 256 := BitVec.toNat_add ..

/-! ### Nibbles -/

theorem toNat_shiftRight_four (b : UInt8) : (b >>> 4).toNat = b.toNat / 16 := by
  show (b.toBitVec >>> (UInt8.mod 4 8).toBitVec).toNat = _
  rw [BitVec.ushiftRight_eq', BitVec.toNat_ushiftRight, Nat.shiftRight_eq_div_pow]
  rfl

theorem toNat_and_fifteen (b : UInt8) : (b &&& 0xF).toNat = b.toNat % 16 := by
  rw [UInt8.and_toNat]
  exact Nat.and_pow_two_sub_one_eq_mod b.toNat 4

/-- A high nibble shifted up and or-ed with a low nibble is sixteen times the one plus the other. -/
theorem toNat_join {hi lo : UInt8} (hhi : hi.toNat < 16) (hlo : lo.toNat < 16) :
    ((hi <<< 4) ||| lo).toNat = 16 * hi.toNat + lo.toNat := by
  have hshift : (hi <<< 4).toNat = 2 ^ 4 * hi.toNat := by
    show (hi.toBitVec <<< (UInt8.mod 4 8).toBitVec).toNat = _
    rw [BitVec.shiftLeft_eq', BitVec.toNat_shiftLeft, Nat.shiftLeft_eq]
    show hi.toNat * 16 % 256 = 16 * hi.toNat
    omega
  show (hi <<< 4).toNat ||| lo.toNat = _
  rw [hshift, ← Nat.mul_add_lt_is_or hlo]

/-- A byte is its high nibble shifted back up, or-ed with its low nibble. -/
theorem join_nibbles (b : UInt8) : ((b >>> 4) <<< 4) ||| (b &&& 0xF) = b := by
  have := byte_lt b
  apply UInt8.toNat.inj
  rw [toNat_join (by rw [toNat_shiftRight_four]; omega) (by rw [toNat_and_fifteen]; omega),
    toNat_shiftRight_four, toNat_and_fifteen]
  omega

theorem ofNat_div_sixteen (b : UInt8) : UInt8.ofNat (b.toNat / 16) = b >>> 4 :=
  UInt8.toNat.inj (by rw [toNat_byte, toNat_shiftRight_four]; have := byte_lt b; omega)

theorem ofNat_mod_sixteen (b : UInt8) : UInt8.ofNat (b.toNat % 16) = b &&& 0xF :=
  UInt8.toNat.inj (by rw [toNat_byte, toNat_and_fifteen]; omega)

/-! ### Reading through a pointer -/

/-- The bytes `p[0..n)` that a copy loop `for (i = 0; i < n; i++) ... = p[i]` reads. -/
def copy (p : Ptr) (n : Nat) : List UInt8 := (List.range n).map p

@[simp] theorem length_copy (p : Ptr) (n : Nat) : (copy p n).length = n := by simp [copy]

@[simp] theorem getElem_copy (p : Ptr) (n i : Nat) (h : i < (copy p n).length) : (copy p n)[i] = p i := by
  simp [copy]

theorem getElem?_copy {p : Ptr} {n i : Nat} (h : i < n) : (copy p n)[i]? = some (p i) := by
  simp [copy, h]

theorem copy_congr {p q : Ptr} {n : Nat} (h : ∀ i < n, p i = q i) : copy p n = copy q n :=
  List.ext_getElem (by simp) fun i h1 _ => by simp only [getElem_copy]; exact h i (by simpa using h1)

theorem copy_succ (p : Ptr) (n : Nat) : copy p (n + 1) = p 0 :: copy (fun i => p (i + 1)) n := by
  simp [copy, List.range_succ_eq_map]

/-- Reading a list through a pointer to its first byte gives the list back. -/
theorem copy_getD (l : List UInt8) (d : UInt8) : copy (fun i => l.getD i d) l.length = l :=
  List.ext_getElem (by simp) fun i h _ => by simp [List.getElem?_eq_getElem (by simpa using h : i < l.length)]

/-- A list of bytes laid over a pointer's bytes: `bytes[j]` where there is one, `heap j` beyond. -/
def overlay (bytes : List UInt8) (heap : Ptr) : Ptr := fun j => (bytes[j]?).getD (heap j)

theorem overlay_of_lt {bytes : List UInt8} {j : Nat} (heap : Ptr) (h : j < bytes.length) :
    overlay bytes heap j = bytes[j] := by
  simp [overlay, List.getElem?_eq_getElem h]

theorem overlay_of_le {bytes : List UInt8} {j : Nat} (heap : Ptr) (h : bytes.length ≤ j) :
    overlay bytes heap j = heap j := by
  simp [overlay, List.getElem?_eq_none h]

theorem copy_overlay {bytes : List UInt8} {n : Nat} (heap : Ptr) (h : n ≤ bytes.length) :
    copy (overlay bytes heap) n = bytes.take n :=
  List.ext_getElem (by simp; omega) fun i h1 _ => by
    simp only [getElem_copy, List.getElem_take]
    exact overlay_of_lt heap (by simp at h1; omega)

@[simp] theorem overlay_cons_zero (b : UInt8) (bytes : List UInt8) (heap : Ptr) :
    overlay (b :: bytes) heap 0 = b := by
  simp [overlay]

theorem overlay_zero (bytes : List UInt8) (heap : Ptr) : overlay bytes heap 0 = bytes.headD (heap 0) := by
  cases bytes <;> simp [overlay]

theorem overlay_cons_succ (b : UInt8) (bytes : List UInt8) (heap : Ptr) (i : Nat) :
    overlay (b :: bytes) heap (i + 1) = overlay bytes (fun j => heap (j + 1)) i := by
  simp [overlay]

/-! ### `USHORT` fields -/

/-- The low and the high byte of a `USHORT`, in the order a store through `USHORT*` lays them out. -/
def le16Bytes (n : UInt16) : List UInt8 := [UInt8.ofNat n.toNat, UInt8.ofNat (n.toNat / 256)]

/-- The `USHORT` that a load through `USHORT*` reads from its low byte and its high byte. -/
def le16 (lo hi : UInt8) : UInt16 := UInt16.ofNat (lo.toNat + 256 * hi.toNat)

@[simp] theorem toNat_le16 (lo hi : UInt8) : (le16 lo hi).toNat = lo.toNat + 256 * hi.toNat := by
  have := byte_lt lo
  have := byte_lt hi
  rw [le16, toNat_word]
  omega

@[simp] theorem length_le16Bytes (n : UInt16) : (le16Bytes n).length = 2 := rfl

/-- A field stored and loaded again is the value stored. -/
theorem le16_le16Bytes (n : UInt16) : le16 (UInt8.ofNat n.toNat) (UInt8.ofNat (n.toNat / 256)) = n := by
  apply UInt16.toNat.inj
  have := word_lt n
  rw [toNat_le16, toNat_byte, toNat_byte]
  omega

/-- A field loaded and stored again is the two bytes loaded. -/
theorem le16Bytes_le16 (lo hi : UInt8) : le16Bytes (le16 lo hi) = [lo, hi] := by
  have := byte_lt lo
  have := byte_lt hi
  simp only [le16Bytes, toNat_le16, List.cons.injEq, and_true]
  constructor <;> apply UInt8.toNat.inj <;> rw [toNat_byte] <;> omega

end NesDbg
