import NesDbg.Word

/-! The serial link (`serialcomm.cpp`).

`WriteFile` and `ReadFile` on the COM port do whatever the driver and the device on the far side make of
a call. A `Port` says, from any state of that far side, whether a call succeeded, how many bytes it moved
and what state follows; nothing at all is assumed of it. `SendData` and `ReceiveData` are translated as
they stand: each returns `FALSE` when its call failed or moved fewer bytes than asked, and `ReceiveData`
stores only the bytes that arrived, over whatever its buffer held before.

A `Link` is the port's state and the calls the host has made, each with what it returned. -/

namespace NesDbg

/-- The far side of the COM port: `WriteFile` gives its result and the number of bytes written,
    `ReadFile` its result and the bytes it stored, for a request of some number of bytes. -/
structure Port (σ : Type) where
  writeFile : σ → List UInt8 → Bool × Nat × σ
  readFile : σ → Nat → Bool × List UInt8 × σ

/-- One call of the host on the link, with what it returned: a `SendData` of some bytes, or a
    `ReceiveData` of `numBytes` bytes of which the bytes `got` arrived. -/
inductive Call
  | send (data : List UInt8) (ret : Bool)
  | receive (numBytes : Nat) (got : List UInt8) (ret : Bool)
deriving DecidableEq, Repr

/-- The port's state and the calls made so far. -/
structure Link (σ : Type) where
  st : σ
  calls : List Call

variable {σ : Type}

/-- `SendData(pData, numBytes)`, `data` the bytes `pData[0..numBytes)`. -/
def sendData (P : Port σ) (l : Link σ) (data : List UInt8) : Bool × Link σ :=
  let (ok, bytesWritten, st) := P.writeFile l.st data
  let ret := ok && bytesWritten == data.length
  (ret, ⟨st, l.calls ++ [.send data ret]⟩)

/-- `ReceiveData(pData, numBytes)`: the buffer after the call, the bytes that arrived laid over what
    `pData` held. -/
def receiveData (P : Port σ) (l : Link σ) (pData : Ptr) (numBytes : Nat) : Bool × Ptr × Link σ :=
  let (ok, bytes, st) := P.readFile l.st numBytes
  let got := bytes.take numBytes
  let ret := ok && got.length == numBytes
  (ret, overlay got pData, ⟨st, l.calls ++ [.receive numBytes got ret]⟩)

/-- The bytes of the sends among some calls, in order. -/
def sentData (calls : List Call) : List (List UInt8) :=
  calls.filterMap fun
    | .send data _ => some data
    | .receive .. => none

/-- A port that takes and gives nothing: every call fails and moves no byte. -/
def Port.dead : Port Unit := ⟨fun _ _ => (false, 0, ()), fun _ _ => (false, [], ())⟩

/-! ### Spec lemmas -/

theorem sendData_eq (P : Port σ) (l : Link σ) (data : List UInt8) :
    ∃ ret st, sendData P l data = (ret, ⟨st, l.calls ++ [.send data ret]⟩) :=
  ⟨_, _, rfl⟩

/-- `ReceiveData` stores at most the bytes asked for, and returns `TRUE` only when all of them
    arrived. -/
theorem receiveData_eq (P : Port σ) (l : Link σ) (pData : Ptr) (numBytes : Nat) :
    ∃ got ret st, got.length ≤ numBytes ∧ (ret = true → got.length = numBytes) ∧
      receiveData P l pData numBytes = (ret, overlay got pData, ⟨st, l.calls ++ [.receive numBytes got ret]⟩) :=
  ⟨_, _, _, List.length_take_le _ _, by simp, rfl⟩

theorem sentData_append (xs ys : List Call) : sentData (xs ++ ys) = sentData xs ++ sentData ys :=
  List.filterMap_append _ _ _

/-- The bytes a full receive leaves in its buffer are the bytes that arrived. -/
theorem copy_received {got : List UInt8} {n : Nat} (pData : Ptr) (h : got.length = n) :
    copy (overlay got pData) n = got := by
  rw [copy_overlay pData h.ge, ← h, List.take_length]

end NesDbg
