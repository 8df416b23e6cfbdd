import NesDbg.Word

/-! What the script callables and `ScriptMgr::ExecuteScript` read of Lua values (Lua 5.1 C API).

A table is its array part, the values at keys `1, 2, ...`, as `lua_rawgeti` reads them. A number value
is integral: what every caller here does with a number is cast it to an integer field, which keeps only
its integral part, and a script's number values with a fractional part are left out. A string that
reads as a number with one is converted, to the integral part.

`lua_isnumber` and `lua_tonumber` read a string with `luaO_str2d` (`str2d`): `strtod`, then
`strtoul(s, &endptr, 16)` when `strtod` stops at an `x` or `X`, and after the number only white space.
`strtod` is modelled on the decimal form that every C runtime reads, rounded to the nearest double with
ties to even; the forms some runtimes add (hexadecimal floats, `INF` and `NAN`, MSVC's `d` exponent)
are left out, so that a hexadecimal constant goes through `strtoul`, whose `unsigned long` is 32 bits
wide on Windows.

The callables convert a number to a field with a C++ cast: `toUShort` for `static_cast<USHORT>`,
`toUInt` for `static_cast<UINT>`, `toByte` for `static_cast<BYTE>`. C++ defines the conversion only
where the integral part fits the field, and beyond it compilers differ. The model takes the SSE2 code of
x86-64, MSVC's and GCC's alike: `cvttsd2si` into 32 bits for a `USHORT` or a `BYTE` and into 64 bits for
a `UINT`, then the low bits. So a `USHORT` or a `BYTE` is the number modulo `2 ^ 16` or `2 ^ 8` for
`-2 ^ 31 ≤ n < 2 ^ 31` and `0` beyond (`toNat_toUShort_of_lt`, `toUShort_of_not_lt`, `toNat_toByte_of_lt`),
and a `UINT` the number modulo `2 ^ 32` for `-2 ^ 63 ≤ n < 2 ^ 63` (`toUInt_of_lt`). -/

namespace NesDbg

/-! ### `luaO_str2d` -/

/-- `isspace` in the C locale. -/
def isCSpace (c : Char) : Bool :=
  c = ' ' || c = '\t' || c = '\n' || c = '\x0B' || c = '\x0C' || c = '\r'

/-- The value of a run of decimal digits. -/
def decValue (ds : List Char) : Nat := ds.foldl (fun n c => 10 * n + (c.toNat - 48)) 0

/-- An optional sign: whether it is `-`, and the text after it. -/
def readSign : List Char → Bool × List Char
  | '-' :: t => (true, t)
  | '+' :: t => (false, t)
  | t => (false, t)

/-- The exponent `(e|E)[sign]digits` after a decimal mantissa: its value and the text after it; `0` and
    the text itself when there is none, also when no digit follows the `e`, which `strtod` then leaves
    unread. -/
def readExponent : List Char → Int × List Char
  | c :: t =>
    let (neg, u) := readSign t
    let (ds, rest) := u.span Char.isDigit
    if (c = 'e' ∨ c = 'E') ∧ ds ≠ [] then (if neg then -(decValue ds : Int) else decValue ds, rest)
    else (0, c :: t)
  | [] => (0, [])

/-- `strtod(s, &endptr)` on the decimal form `[white space][sign]digits[.digits][(e|E)[sign]digits]`:
    whether it is negative, the digits before and after the point as one run, the power of ten that run
    is scaled by, and the text at `endptr`; `none` when no digit stands before or after the point, where
    `endptr` is `s`. -/
def strtod (s : List Char) : Option (Bool × List Char × Int × List Char) :=
  let (neg, t) := readSign (s.dropWhile isCSpace)
  let (ip, t) := t.span Char.isDigit
  let (fp, t) := match t with
    | '.' :: u => u.span Char.isDigit
    | u => ([], u)
  if ip = [] ∧ fp = [] then none
  else
    let (e, endptr) := readExponent t
    some (neg, ip ++ fp, e - fp.length, endptr)

/-- The value of a hexadecimal digit. -/
def hexDigitValue (c : Char) : Option Nat :=
  if '0' ≤ c ∧ c ≤ '9' then some (c.toNat - 48)
  else if 'a' ≤ c ∧ c ≤ 'f' then some (c.toNat - 87)
  else if 'A' ≤ c ∧ c ≤ 'F' then some (c.toNat - 55)
  else none

def isHexDigitChar (c : Char) : Bool := (hexDigitValue c).isSome

/-- A `0x` or `0X` prefix, skipped when a hexadecimal digit follows it. -/
def skipHexPrefix : List Char → List Char
  | '0' :: x :: d :: u => if (x = 'x' ∨ x = 'X') ∧ isHexDigitChar d then d :: u else '0' :: x :: d :: u
  | t => t

/-- `strtoul(s, &endptr, 16)`, `unsigned long` 32 bits wide: the value and the text at `endptr`; with no
    digit the value is `0` and `endptr` is `s`. A minus sign negates the value modulo `2 ^ 32`, and a
    value past `ULONG_MAX` is `ULONG_MAX`. -/
def strtoul16 (s : List Char) : Nat × List Char :=
  let (neg, t) := readSign (s.dropWhile isCSpace)
  let (ds, endptr) := (skipHexPrefix t).span isHexDigitChar
  let v := ds.foldl (fun n c => 16 * n + (hexDigitValue c).getD 0) 0
  if ds = [] then (0, s)
  else if 4294967295 < v then (4294967295, endptr)
  else (if neg then (4294967296 - v) % 4294967296 else v, endptr)

/-- `⌊log2 n⌋` for `0 < n`, in at most `fuel` halvings: `Nat.log2` by structural recursion, so that
    `decide` evaluates it (`log2Fuel_eq`). -/
def log2Fuel : Nat → Nat → Nat
  | 0, _ => 0
  | fuel + 1, n => if n < 2 then 0 else log2Fuel fuel (n / 2) + 1

theorem log2Fuel_eq : ∀ {fuel n : Nat}, n ≤ fuel → log2Fuel fuel n = Nat.log2 n
  | 0, n, h => by rw [Nat.le_zero.mp h, log2Fuel, Nat.log2.eq_1, if_neg (by omega)]
  | fuel + 1, n, h => by
    rw [log2Fuel, Nat.log2.eq_1]
    by_cases hn : n < 2
    · rw [if_pos hn, if_neg (by omega)]
    · rw [if_neg hn, if_pos (by omega), log2Fuel_eq (by omega)]

/-- `a / b` rounded to the nearest natural, ties to the even one. -/
def divRoundEven (a b : Nat) : Nat :=
  if 2 * (a % b) < b then a / b
  else if b < 2 * (a % b) then a / b + 1
  else a / b + a / b % 2

/-- The integral part of the double nearest to `a / b` (`0 < b`), ties to even, as `strtod` rounds.
    Below `1` the value rounds to `1` from `1 - 2 ^ -54` on; from `2 ^ E` on, `E = ⌊log2 (a / b)⌋`, the
    double keeps 53 bits from bit `E` down. A value past the largest double rounds to infinity, for which
    `2 ^ 1024` stands, past every finite double. -/
def nearestTrunc (a b : Nat) : Nat :=
  if a < b then if (Nat.pow 2 54 - 1) * b ≤ Nat.pow 2 54 * a then 1 else 0
  else
    let E := log2Fuel (a / b) (a / b)
    if E ≤ 52 then divRoundEven (a * Nat.pow 2 (52 - E)) b / Nat.pow 2 (52 - E)
    else min (Nat.pow 2 1024) (divRoundEven a (b * Nat.pow 2 (E - 52)) * Nat.pow 2 (E - 52))

/-- The integral part of the double nearest to `m * 10 ^ e`, `m` a run of `n` digits. Past an exponent of
    `400` a nonzero value is infinite, and below `-n` the value is under `0.1`, so that neither power of
    ten is computed. -/
def decimalTrunc (m n : Nat) (e : Int) : Nat :=
  if 0 ≤ e then
    if 400 < e then (if m = 0 then 0 else Nat.pow 2 1024) else nearestTrunc (m * Nat.pow 10 e.toNat) 1
  else if n < e.natAbs then 0 else nearestTrunc m (Nat.pow 10 e.natAbs)

/-- `luaO_str2d` on a Lua string, read as a C string up to its first NUL: the integral part of the
    number it converts to, or `none` when it is not a number. -/
def str2d (s : String) : Option Int :=
  let cs := s.toList.takeWhile (· ≠ '\x00')
  (strtod cs).bind fun (neg, ds, e, endptr) =>
    let (result, endptr) : Int × List Char := match endptr with
      | 'x' :: _ | 'X' :: _ => let (v, endptr) := strtoul16 cs; (v, endptr)
      | _ => let v : Int := decimalTrunc (decValue ds) ds.length e; (if neg then -v else v, endptr)
    if endptr.dropWhile isCSpace = [] then some result else none

/-- Lua's own rejections and acceptances: `"-"` and `"0x"` are not numbers; `"0x10"`, `" 16 "`, `"+5"`,
    `"1e1"` are, and `"16.9"` and `"-16.9"` have the integral parts `16` and `-16`. -/
example : str2d "-" = none ∧ str2d "0x" = none ∧ str2d "0x10" = some 16 ∧ str2d " 16 " = some 16 ∧
    str2d "+5" = some 5 ∧ str2d "1e1" = some 10 ∧ str2d "16.9" = some 16 ∧ str2d "-16.9" = some (-16) := by
  decide

/-! ### Values -/

/-- A Lua value. -/
inductive LuaValue
  | nil
  | boolean (b : Bool)
  | number (n : Int)
  | string (s : String)
  | table (arr : List LuaValue)
  | function

namespace LuaValue

/-- `lua_isnumber`: a number, or a string that `luaO_str2d` converts. -/
def isNumber : LuaValue → Bool
  | number _ => true
  | string s => (str2d s).isSome
  | _ => false

/-- `lua_tonumber`, of which the casts keep the integral part: the number, or the integral part of the
    number a string converts to; `0` for any other value. -/
def toNumber : LuaValue → Int
  | number n => n
  | string s => (str2d s).getD 0
  | _ => 0

/-- `lua_isstring`: a string, or a number, which converts to one. -/
def isString : LuaValue → Bool
  | string _ | number _ => true
  | _ => false

/-- `lua_tostring`: the string, or a number's text (`%.14g`, for an integral number of up to fourteen
    digits its decimal digits); `NULL` for any other value. -/
def toStr? : LuaValue → Option String
  | string s => some s
  | number n => some (toString n)
  | _ => none

/-- `lua_tostring` of a value that `lua_isstring` accepts. -/
def toStr (v : LuaValue) : String := v.toStr?.getD ""

/-- `lua_istable`. -/
def isTable : LuaValue → Bool
  | table _ => true
  | _ => false

/-- `lua_rawgeti(L, idx, i)` on a table: the value at key `i`, `nil` where there is none. -/
def rawGetI : LuaValue → Nat → LuaValue
  | table arr, i + 1 => arr.getD i nil
  | _, _ => nil

end LuaValue

/-- The value at stack index `i` of a C function's frame, `1` the first argument; `none` past the last. -/
def arg (args : List LuaValue) (i : Nat) : Option LuaValue := args[i - 1]?

/-- `lua_isnumber(L, i)`: false for an absent argument. -/
def argIsNumber (args : List LuaValue) (i : Nat) : Bool := (arg args i).any LuaValue.isNumber

/-- `lua_isstring(L, i)`: false for an absent argument. -/
def argIsString (args : List LuaValue) (i : Nat) : Bool := (arg args i).any LuaValue.isString

/-- `lua_tostring(L, i)`. -/
def argToStr (args : List LuaValue) (i : Nat) : String := ((arg args i).map LuaValue.toStr).getD ""

/-- `lua_istable(L, i)`. -/
def argIsTable (args : List LuaValue) (i : Nat) : Bool := (arg args i).any LuaValue.isTable

/-- `lua_tonumber(L, i)`: `0` for an absent argument. -/
def argToNumber (args : List LuaValue) (i : Nat) : Int := ((arg args i).map LuaValue.toNumber).getD 0

/-! ### Casts -/

/-- `cvttsd2si` into 32 bits of a number with integral part `n`: `n` where it fits, the integer
    indefinite `0x80000000` where it does not. -/
def cvttsd2si32 (n : Int) : Int := if -2147483648 ≤ n ∧ n < 2147483648 then n else -2147483648

/-- `cvttsd2si` into 64 bits. -/
def cvttsd2si64 (n : Int) : Int :=
  if -9223372036854775808 ≤ n ∧ n < 9223372036854775808 then n else -9223372036854775808

/-- `static_cast<USHORT>`. -/
def toUShort (n : Int) : UInt16 := UInt16.ofNat (cvttsd2si32 n % 65536).toNat

/-- `static_cast<UINT>`. -/
def toUInt (n : Int) : Nat := (cvttsd2si64 n % 4294967296).toNat

/-- `static_cast<BYTE>`. -/
def toByte (n : Int) : UInt8 := UInt8.ofNat (cvttsd2si32 n % 256).toNat

theorem toNat_toUShort_of_lt {n : Int} (h1 : -2147483648 ≤ n) (h2 : n < 2147483648) :
    (toUShort n).toNat = (n % 65536).toNat := by
  rw [toUShort, toNat_word, cvttsd2si32, if_pos ⟨h1, h2⟩]
  omega

theorem toUShort_of_not_lt {n : Int} (h : ¬(-2147483648 ≤ n ∧ n < 2147483648)) : toUShort n = 0 := by
  rw [toUShort, cvttsd2si32, if_neg h]
  rfl

theorem toNat_toByte_of_lt {n : Int} (h1 : -2147483648 ≤ n) (h2 : n < 2147483648) :
    (toByte n).toNat = (n % 256).toNat := by
  rw [toByte, toNat_byte, cvttsd2si32, if_pos ⟨h1, h2⟩]
  omega

theorem toUInt_of_lt {n : Int} (h1 : -9223372036854775808 ≤ n) (h2 : n < 9223372036854775808) :
    toUInt n = (n % 4294967296).toNat := by
  rw [toUInt, cvttsd2si64, if_pos ⟨h1, h2⟩]

end NesDbg
