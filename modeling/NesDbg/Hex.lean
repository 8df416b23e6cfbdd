import NesDbg.Word
import Mathlib.Logic.Function.Basic

/-! The hex text of the raw debug console (`DbgPacket::CreateObjFromString`, `NesDbg::RawDbgDlgProc`).

The nibble loop of `CreateObjFromString` reads each code unit through `static_cast<BYTE>`, skips a
space, breaks on anything that is not a hex digit, and otherwise stores the digit's nibble in
`pRawData[nibbleIdx / 2]`: shifted into the high half when `nibbleIdx` is even, or-ed into the low
half when it is odd. `scan` is what the loop reads from a string, and `fill` what the buffer holds
after a list of nibbles; `nibbleLoop_start` says that the loop computes exactly these, with one write
at `i / 2` for the `i`-th nibble, whatever the heap held before.

The console renders received bytes as two uppercase digits and a space each (`renderOutput`). -/

namespace NesDbg

/-- How the nibble loop treats one byte of input. -/
inductive Lexeme
  | nibble (v : UInt8)
  | space
  | invalid
deriving DecidableEq, Repr

/-- The classification of `input = static_cast<BYTE>(pString[i])`. -/
def lexeme (input : UInt8) : Lexeme :=
  if input ≥ '0'.toUInt8 ∧ input ≤ '9'.toUInt8 then .nibble (input - '0'.toUInt8)
  else if input ≥ 'a'.toUInt8 ∧ input ≤ 'f'.toUInt8 then .nibble (input - 'a'.toUInt8 + 0xa)
  else if input ≥ 'A'.toUInt8 ∧ input ≤ 'F'.toUInt8 then .nibble (input - 'A'.toUInt8 + 0xa)
  else if input = ' '.toUInt8 then .space
  else .invalid

/-- `_T(' ')`. -/
def space : TChar := 0x20

/-- The value of a hex digit (spec §4.1): `'0'`-`'9'` (`0x30`-`0x39`), `'a'`-`'f'` (`0x61`-`0x66`) or
    `'A'`-`'F'` (`0x41`-`0x46`); `none` for any other code unit. -/
def hexValue (c : TChar) : Option Nat :=
  if 0x30 ≤ c.toNat ∧ c.toNat ≤ 0x39 then some (c.toNat - 0x30)
  else if 0x61 ≤ c.toNat ∧ c.toNat ≤ 0x66 then some (c.toNat - 0x61 + 10)
  else if 0x41 ≤ c.toNat ∧ c.toNat ≤ 0x46 then some (c.toNat - 0x41 + 10)
  else none

theorem hexValue_lt {c : TChar} {v : Nat} (h : hexValue c = some v) : c.toNat < 256 := by
  unfold hexValue at h
  split_ifs at h <;> omega

theorem hexValue_lt_sixteen {c : TChar} {v : Nat} (h : hexValue c = some v) : v < 16 := by
  unfold hexValue at h
  split_ifs at h <;> simp only [Option.some.injEq, reduceCtorEq] at h <;> omega

/-- `lexeme` reads a byte as `hexValue` reads the code unit of the same value, and knows a space. -/
theorem lexeme_eq (b : UInt8) : lexeme b =
    match hexValue (UInt16.ofNat b.toNat) with
    | some v => .nibble (UInt8.ofNat v)
    | none => if b.toNat = 0x20 then .space else .invalid := by
  have digit : ∀ c : UInt8, c.toNat ≤ b.toNat → b - c = UInt8.ofNat (b.toNat - c.toNat) := fun c h =>
    UInt8.toNat.inj (by rw [UInt8.toNat_sub_of_le _ _ h, toNat_byte]; have := byte_lt b; omega)
  have letter : ∀ c : UInt8, c.toNat ≤ b.toNat → b - c + 0xa = UInt8.ofNat (b.toNat - c.toNat + 10) :=
    fun c h => UInt8.toNat.inj (by rw [toNat_add_byte, UInt8.toNat_sub_of_le _ _ h, toNat_byte]; rfl)
  unfold lexeme hexValue
  simp only [ge_iff_le, byte_le_iff, byte_eq_iff, toNat_word_byte, show '0'.toUInt8.toNat = 0x30 from rfl,
    show '9'.toUInt8.toNat = 0x39 from rfl, show 'a'.toUInt8.toNat = 0x61 from rfl,
    show 'f'.toUInt8.toNat = 0x66 from rfl, show 'A'.toUInt8.toNat = 0x41 from rfl,
    show 'F'.toUInt8.toNat = 0x46 from rfl, show ' '.toUInt8.toNat = 0x20 from rfl]
  -- a digit range that meets the space test is a contradiction; otherwise both sides take one branch
  split_ifs <;> first
    | omega
    | (rw [digit '0'.toUInt8 (by show 0x30 ≤ _; omega)]; rfl)
    | (rw [letter 'a'.toUInt8 (by show 0x61 ≤ _; omega)]; rfl)
    | (rw [letter 'A'.toUInt8 (by show 0x41 ≤ _; omega)]; rfl)
    | rfl

/-- What each of the loop's three cases says of the code unit with the byte's value. -/
theorem lexeme_cases (b : UInt8) : match lexeme b with
    | .nibble v => hexValue (UInt16.ofNat b.toNat) = some v.toNat ∧ UInt16.ofNat b.toNat ≠ space
    | .space => UInt16.ofNat b.toNat = space
    | .invalid => UInt16.ofNat b.toNat ≠ space ∧ hexValue (UInt16.ofNat b.toNat) = none := by
  have hw := toNat_word_byte b
  rw [lexeme_eq]
  cases h : hexValue (UInt16.ofNat b.toNat) with
  | some v =>
    have hv := hexValue_lt_sixteen h
    refine ⟨by rw [toNat_byte, Nat.mod_eq_of_lt (by omega)], fun hs => ?_⟩
    rw [hs] at h
    cases h
  | none =>
    by_cases hs : b.toNat = 0x20
    · rw [if_pos hs]
      exact UInt16.toNat.inj (by rw [hw, hs]; rfl)
    · rw [if_neg hs]
      exact ⟨fun e => hs (by rw [← hw, e]; rfl), rfl⟩

/-- A code unit that is a hex digit reads, through `static_cast<BYTE>`, as its own value. -/
theorem lexeme_of_hexValue {c : TChar} {v : Nat} (h : hexValue c = some v) :
    lexeme c.toUInt8 = .nibble (UInt8.ofNat v) := by
  have hc : UInt16.ofNat c.toUInt8.toNat = c :=
    UInt16.toNat.inj (by rw [toNat_word, toNat_toUInt8]; have := hexValue_lt h; omega)
  rw [lexeme_eq, hc, h]

theorem lexeme_space : lexeme space.toUInt8 = .space := by decide

/-- The state of the nibble loop: `nibbleIdx`, the bytes at `pRawData` (what the heap held where
    nothing was written), and the index of every write into `pRawData`, in order. -/
structure NibbleState where
  nibbleIdx : Nat
  rawData : Ptr
  writes : List Nat

namespace NibbleState

/-- The loop's state before the first character, over a heap. -/
def start (heap : Ptr) : NibbleState := ⟨0, heap, []⟩

/-- `pRawData[nibbleIdx / 2] = (nibbleIdx & 1) ? (pRawData[nibbleIdx / 2] | nibble) : (nibble << 4);`
    then `nibbleIdx++`. -/
def push (st : NibbleState) (nibble : UInt8) : NibbleState :=
  let j := st.nibbleIdx / 2
  { nibbleIdx := st.nibbleIdx + 1
    rawData := Function.update st.rawData j
      (if st.nibbleIdx % 2 = 1 then st.rawData j ||| nibble else nibble <<< 4)
    writes := st.writes ++ [j] }

end NibbleState

/-- The nibble loop over a string: the state it ends in, and `success`, which `break` clears. -/
def nibbleLoop (st : NibbleState) : List TChar → NibbleState × Bool
  | [] => (st, true)
  | c :: cs =>
    match lexeme c.toUInt8 with
    | .nibble v => nibbleLoop (st.push v) cs
    | .space => nibbleLoop st cs
    | .invalid => (st, false)

/-! ### What the loop computes -/

/-- The nibbles the loop reads before it ends or breaks, and whether it ran to the end. -/
def scan : List TChar → List UInt8 × Bool
  | [] => ([], true)
  | c :: cs =>
    match lexeme c.toUInt8 with
    | .nibble v => ((scan cs).1.cons v, (scan cs).2)
    | .space => scan cs
    | .invalid => ([], false)

/-- The byte at `pRawData[j]` after the nibbles `ns`: a whole byte, a high half alone, or the heap. -/
def fill (heap : Ptr) (ns : List UInt8) (j : Nat) : UInt8 :=
  match ns[2 * j]?, ns[2 * j + 1]? with
  | some hi, some lo => (hi <<< 4) ||| lo
  | some hi, none => hi <<< 4
  | none, _ => heap j

/-- The loop's state after the nibbles `ns`. -/
def NibbleState.after (heap : Ptr) (ns : List UInt8) : NibbleState :=
  ⟨ns.length, fill heap ns, (List.range ns.length).map (· / 2)⟩

theorem NibbleState.start_eq (heap : Ptr) : start heap = after heap [] := by
  simp [start, after, fill]
  rfl

theorem fill_append (heap : Ptr) (ns : List UInt8) (v : UInt8) :
    fill heap (ns ++ [v]) = Function.update (fill heap ns) (ns.length / 2)
      (if ns.length % 2 = 1 then fill heap ns (ns.length / 2) ||| v else v <<< 4) := by
  funext j
  by_cases hj : j = ns.length / 2
  · subst hj
    rcases Nat.mod_two_eq_zero_or_one ns.length with h | h
    · have e : 2 * (ns.length / 2) = ns.length := by omega
      simp [fill, h, e, List.getElem?_append_right]
    · have e : 2 * (ns.length / 2) + 1 = ns.length := by omega
      have hlt : 2 * (ns.length / 2) < ns.length := by omega
      simp [fill, h, e, List.getElem?_append_left hlt, List.getElem?_append_right,
        List.getElem?_eq_getElem hlt]
  · rw [Function.update_noteq hj]
    by_cases hlt : 2 * j + 1 < ns.length
    · simp [fill, List.getElem?_append_left hlt, List.getElem?_append_left (Nat.lt_of_succ_lt hlt)]
    · have hge : ns.length + 1 ≤ 2 * j := by omega
      simp [fill, List.getElem?_eq_none (by simpa using hge : (ns ++ [v]).length ≤ 2 * j),
        List.getElem?_eq_none (by omega : ns.length ≤ 2 * j)]

/-- One nibble more is one `push`. -/
theorem NibbleState.push_after (heap : Ptr) (ns : List UInt8) (v : UInt8) :
    (after heap ns).push v = after heap (ns ++ [v]) := by
  simp only [push, after, fill_append, List.length_append, List.length_singleton, List.range_succ,
    List.map_append, List.map_singleton]

/-- The loop from the state after `ns` ends in the state after `ns` and what it reads. -/
theorem nibbleLoop_after (heap : Ptr) (ns : List UInt8) (s : List TChar) :
    nibbleLoop (NibbleState.after heap ns) s = (NibbleState.after heap (ns ++ (scan s).1), (scan s).2) := by
  induction s generalizing ns with
  | nil => simp [nibbleLoop, scan]
  | cons c cs ih =>
    unfold nibbleLoop scan
    split <;> simp_all [NibbleState.push_after]

theorem nibbleLoop_start (heap : Ptr) (s : List TChar) :
    nibbleLoop (NibbleState.start heap) s = (NibbleState.after heap (scan s).1, (scan s).2) := by
  rw [NibbleState.start_eq, nibbleLoop_after, List.nil_append]

/-! ### Bytes from nibbles -/

/-- Every nibble the loop reads is below sixteen. -/
theorem lexeme_nibble_lt {b v : UInt8} (h : lexeme b = .nibble v) : v.toNat < 16 := by
  have := lexeme_cases b
  rw [h] at this
  exact hexValue_lt_sixteen this.1

theorem scan_nibble_lt {s : List TChar} {v : UInt8} (h : v ∈ (scan s).1) : v.toNat < 16 := by
  induction s with
  | nil => simp [scan] at h
  | cons c cs ih =>
    unfold scan at h
    split at h
    · rcases List.mem_cons.mp h with rfl | h
      · exact lexeme_nibble_lt ‹_›
      · exact ih h
    · exact ih h
    · simp at h

/-- A whole byte is sixteen times its high nibble plus its low nibble. -/
theorem toNat_fill {heap : Ptr} {ns : List UInt8} {j : Nat} (h : 2 * j + 1 < ns.length)
    (hi : ns[2 * j].toNat < 16) (lo : ns[2 * j + 1].toNat < 16) :
    (fill heap ns j).toNat = 16 * ns[2 * j].toNat + ns[2 * j + 1].toNat := by
  rw [fill, List.getElem?_eq_getElem h, List.getElem?_eq_getElem (Nat.lt_of_succ_lt h)]
  exact toNat_join hi lo

/-- The nibbles of a list of bytes, high nibble first, as the console renders them. -/
def nibbles (bytes : List UInt8) : List UInt8 := bytes.flatMap fun b => [b >>> 4, b &&& 0xF]

theorem nibbles_cons (b : UInt8) (bytes : List UInt8) : nibbles (b :: bytes) = b >>> 4 :: (b &&& 0xF) :: nibbles bytes :=
  rfl

theorem length_nibbles (bytes : List UInt8) : (nibbles bytes).length = 2 * bytes.length := by
  induction bytes with
  | nil => rfl
  | cons b bytes ih => rw [nibbles_cons, List.length_cons, List.length_cons, ih, List.length_cons]; omega

theorem getElem?_nibbles (bytes : List UInt8) (j : Nat) :
    (nibbles bytes)[2 * j]? = bytes[j]?.map (fun b : UInt8 => b >>> 4) ∧
      (nibbles bytes)[2 * j + 1]? = bytes[j]?.map (fun b : UInt8 => b &&& 0xF) := by
  induction bytes generalizing j with
  | nil => simp [nibbles]
  | cons b bytes ih =>
    cases j with
    | zero => simp [nibbles_cons]
    | succ j =>
      have e1 : 2 * (j + 1) = 2 * j + 1 + 1 := by omega
      have e2 : 2 * (j + 1) + 1 = 2 * j + 1 + 1 + 1 := by omega
      simp only [nibbles_cons, e1, e2, List.getElem?_cons_succ, (ih j).1, (ih j).2, and_self]

/-- After the nibbles of some bytes, `pRawData` holds those bytes, laid over the heap. -/
theorem fill_nibbles (heap : Ptr) (bytes : List UInt8) : fill heap (nibbles bytes) = overlay bytes heap := by
  funext j
  obtain ⟨h1, h2⟩ := getElem?_nibbles bytes j
  cases hb : bytes[j]? with
  | none => simp [fill, overlay, h1, hb]
  | some b => simp [fill, overlay, h1, h2, hb, join_nibbles]

/-! ### Hex text -/

/-- The high and the low nibble of each byte, in turn. -/
def nibbleValues (bytes : List UInt8) : List Nat := bytes.flatMap fun b => [b.toNat / 16, b.toNat % 16]

/-- `text` writes `bytes` in hex: apart from spaces, which may stand anywhere, it is hex digits in
    either case, the high and the low nibble of each byte in turn. -/
def HexText (text : List TChar) (bytes : List UInt8) : Prop :=
  (text.filter (· != space)).map hexValue = (nibbleValues bytes).map some

instance (text : List TChar) (bytes : List UInt8) : Decidable (HexText text bytes) :=
  inferInstanceAs (Decidable (_ = _))

theorem scan_of_values {text : List TChar} {ds : List Nat}
    (h : (text.filter (· != space)).map hexValue = ds.map some) : scan text = (ds.map UInt8.ofNat, true) := by
  induction text generalizing ds with
  | nil => cases ds <;> simp_all [scan]
  | cons c cs ih =>
    by_cases hc : c = space
    · subst hc
      simp only [List.filter_cons, bne_self_eq_false, Bool.false_eq_true, ite_false] at h
      simp [scan, lexeme_space, ih h]
    · cases ds with
      | nil => simp [List.filter_cons, hc] at h
      | cons d ds =>
        simp only [List.filter_cons, bne_iff_ne, ne_eq, hc, not_false_eq_true, ite_true, List.map_cons,
          List.cons.injEq] at h
        simp [scan, lexeme_of_hexValue h.1, ih h.2]

theorem nibbleValues_map (bytes : List UInt8) : (nibbleValues bytes).map UInt8.ofNat = nibbles bytes := by
  induction bytes with
  | nil => rfl
  | cons b bytes ih =>
    simp [nibbleValues, nibbles] at ih ⊢
    simp [ofNat_div_sixteen, ofNat_mod_sixteen, ih]

/-- The nibble loop reads a hex text of some bytes to its end, and reads their nibbles. -/
theorem scan_of_hexText {text : List TChar} {bytes : List UInt8} (h : HexText text bytes) :
    scan text = (nibbles bytes, true) := by
  rw [scan_of_values h, nibbleValues_map]

/-! ### Rendering -/

/-- The digit the console renders a nibble as: `(n > 9) ? (_T('A') + (n - 0xA)) : _T('0') + n`. -/
def hexDigit (n : UInt8) : TChar :=
  if n > 9 then UInt16.ofNat ('A'.toNat + (n.toNat - 0xA)) else UInt16.ofNat ('0'.toNat + n.toNat)

/-- The characters the rendering loop writes for one received byte. -/
def renderByte (b : UInt8) : List TChar := [hexDigit (b >>> 4), hexDigit (b &&& 0xF), space]

/-- `pOutput` as the rendering loop fills it: each byte in turn, then the terminating NUL. -/
def renderOutput (bytes : List UInt8) : List TChar := bytes.flatMap renderByte ++ [0]

/-- An uppercase hex digit: `'0'`-`'9'` or `'A'`-`'F'`. -/
def IsUpperHexDigit (c : TChar) : Prop := (0x30 ≤ c.toNat ∧ c.toNat ≤ 0x39) ∨ (0x41 ≤ c.toNat ∧ c.toNat ≤ 0x46)

instance : DecidablePred IsUpperHexDigit := fun _ => inferInstanceAs (Decidable (_ ∨ _))

theorem hexDigit_check : ∀ n : Fin 16, hexValue (hexDigit (UInt8.ofNat n)) = some n.val ∧
    hexDigit (UInt8.ofNat n) ≠ space ∧ IsUpperHexDigit (hexDigit (UInt8.ofNat n)) := by
  decide

/-- A nibble renders as an uppercase hex digit with the nibble's value. -/
theorem hexValue_hexDigit {n : UInt8} (h : n.toNat < 16) :
    hexValue (hexDigit n) = some n.toNat ∧ hexDigit n ≠ space ∧ IsUpperHexDigit (hexDigit n) := by
  have := hexDigit_check ⟨n.toNat, h⟩
  rwa [← byte_eq_ofNat] at this

/-- A byte renders as two uppercase digits, its high and its low nibble, and a space. -/
theorem renderByte_digits (b : UInt8) : ∃ hi lo, renderByte b = [hi, lo, space] ∧
    IsUpperHexDigit hi ∧ IsUpperHexDigit lo ∧ hexValue hi = some (b.toNat / 16) ∧
      hexValue lo = some (b.toNat % 16) := by
  have := byte_lt b
  obtain ⟨h1, -, h2⟩ := hexValue_hexDigit (n := b >>> 4) (by rw [toNat_shiftRight_four]; omega)
  obtain ⟨h3, -, h4⟩ := hexValue_hexDigit (n := b &&& 0xF) (by rw [toNat_and_fifteen]; omega)
  rw [toNat_shiftRight_four] at h1
  rw [toNat_and_fifteen] at h3
  exact ⟨_, _, rfl, h2, h4, h1, h3⟩

/-- The rendered text of some bytes is a hex text of them. -/
theorem hexText_render (bytes : List UInt8) : HexText (bytes.flatMap renderByte) bytes := by
  induction bytes with
  | nil => rfl
  | cons b bytes ih =>
    have := byte_lt b
    obtain ⟨h1, h2, -⟩ := hexValue_hexDigit (n := b >>> 4) (by rw [toNat_shiftRight_four]; omega)
    obtain ⟨h3, h4, -⟩ := hexValue_hexDigit (n := b &&& 0xF) (by rw [toNat_and_fifteen]; omega)
    rw [toNat_shiftRight_four] at h1
    rw [toNat_and_fifteen] at h3
    simp only [HexText, nibbleValues, List.flatMap_cons, renderByte] at ih ⊢
    simp [List.filter_cons, h1, h2, h3, h4, ih]

theorem length_render (bytes : List UInt8) : (bytes.flatMap renderByte).length = 3 * bytes.length := by
  induction bytes with
  | nil => rfl
  | cons b bytes ih =>
    rw [List.flatMap_cons, List.length_append, ih, List.length_cons, show (renderByte b).length = 3 from rfl]
    omega

/-- For every byte sequence of length `n`, the rendering loop writes `3n` characters and a NUL, the
    `3n + 1` that `pOutput` holds: for each byte two uppercase digits, its high and its low nibble, and a
    space. The nibble loop of `CreateObjFromString` reads that text to its end, makes its `2n` writes below
    `3n / 2`, and leaves the bytes in `pRawData`. -/
theorem renderOutput_roundTrip (heap : Ptr) (bytes : List UInt8) :
    let text := bytes.flatMap renderByte
    let r := nibbleLoop (NibbleState.start heap) text
    renderOutput bytes = text ++ [0] ∧ (renderOutput bytes).length = bytes.length * 3 + 1 ∧
      (∀ b ∈ bytes, ∃ hi lo, renderByte b = [hi, lo, space] ∧ IsUpperHexDigit hi ∧ IsUpperHexDigit lo ∧
        hexValue hi = some (b.toNat / 16) ∧ hexValue lo = some (b.toNat % 16)) ∧
      r.2 = true ∧ r.1.nibbleIdx = 2 * bytes.length ∧ (∀ j ∈ r.1.writes, j < text.length / 2) ∧
      copy r.1.rawData bytes.length = bytes := by
  intro text r
  have hr : r = (NibbleState.after heap (nibbles bytes), true) := by
    show nibbleLoop _ text = _
    rw [nibbleLoop_start, scan_of_hexText (hexText_render bytes)]
  have hlen : text.length = 3 * bytes.length := length_render bytes
  refine ⟨rfl, ?_, fun b _ => renderByte_digits b, by rw [hr], by rw [hr]; exact length_nibbles bytes,
    fun j hj => ?_, ?_⟩
  · rw [renderOutput, List.length_append, hlen, List.length_singleton]
    omega
  · rw [hr] at hj
    simp only [NibbleState.after, length_nibbles, List.mem_map, List.mem_range] at hj
    obtain ⟨k, hk, rfl⟩ := hj
    omega
  · rw [hr]
    show copy (fill heap (nibbles bytes)) bytes.length = bytes
    rw [fill_nibbles, copy_overlay heap le_rfl, List.take_length]

/-- The code unit U+0141 is none of `'0'`-`'9'`, `'a'`-`'f'`, `'A'`-`'F'` and `' '`, yet the nibble loop
    reads it through `static_cast<BYTE>` as `'A'`: on two of them it runs to the end and stores 0xAA. -/
theorem nibbleLoop_wide_char (heap : Ptr) :
    hexValue 0x0141 = none ∧ (0x0141 : TChar) ≠ space ∧
      (nibbleLoop (NibbleState.start heap) [0x0141, 0x0141]).2 = true ∧
      (nibbleLoop (NibbleState.start heap) [0x0141, 0x0141]).1.rawData 0 = 0xAA := by
  have hs : scan [0x0141, 0x0141] = ([0xA, 0xA], true) := by decide
  rw [nibbleLoop_start, hs]
  exact ⟨by decide, by decide, rfl, rfl⟩

/-- When every code unit of a string is a hex digit or a space, the nibble loop runs to its end, and
    with `ds` the values of the digits in order, `pRawData[j]` is `16 * ds[2j] + ds[2j+1]` for each whole
    pair, wherever the spaces stand. -/
theorem nibbleLoop_digits (heap : Ptr) (s : List TChar) (ds : List Nat)
    (h : (s.filter (· != space)).map hexValue = ds.map some) :
    (nibbleLoop (NibbleState.start heap) s).2 = true ∧
      ∀ j < ds.length / 2, ((nibbleLoop (NibbleState.start heap) s).1.rawData j).toNat =
        16 * ds.getD (2 * j) 0 + ds.getD (2 * j + 1) 0 := by
  rw [nibbleLoop_start, scan_of_values h]
  refine ⟨rfl, fun j hj => ?_⟩
  have hsmall : ∀ d ∈ ds, d < 16 := fun d hd => by
    obtain ⟨c, -, hc⟩ := List.mem_map.mp (h ▸ List.mem_map_of_mem some hd : some d ∈ _)
    exact hexValue_lt_sixteen hc
  have hd : ∀ i < ds.length, (ds.map UInt8.ofNat)[i]? = some (UInt8.ofNat (ds.getD i 0)) ∧ ds.getD i 0 < 16 :=
    fun i hi => by
      rw [List.getElem?_map, List.getD_eq_getElem?_getD, List.getElem?_eq_getElem hi]
      exact ⟨rfl, hsmall _ (List.getElem_mem hi)⟩
  obtain ⟨e1, t1⟩ := hd (2 * j) (by omega)
  obtain ⟨e2, t2⟩ := hd (2 * j + 1) (by omega)
  show (fill heap (ds.map UInt8.ofNat) j).toNat = _
  rw [fill, e1, e2]
  show ((UInt8.ofNat _ <<< 4) ||| UInt8.ofNat _).toNat = _
  rw [toNat_join (by rw [toNat_byte]; omega) (by rw [toNat_byte]; omega), toNat_byte, toNat_byte,
    Nat.mod_eq_of_lt (by omega), Nat.mod_eq_of_lt (by omega)]

theorem nibbleLoop_digits_spaced :
    (([0x30, 0x20, 0x46] : List TChar).filter (· != space)).map hexValue = [0, 15].map some ∧
      ((nibbleLoop (NibbleState.start fun _ => 0) [0x30, 0x20, 0x46]).1.rawData 0).toNat = 15 :=
  ⟨by decide, (nibbleLoop_digits (fun _ => 0) [0x30, 0x20, 0x46] [0, 15] (by decide)).2 0 (by decide)⟩

end NesDbg
