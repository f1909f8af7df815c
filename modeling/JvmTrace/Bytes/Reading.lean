import JvmTrace.Bytes.Cursor

/-!
# Readings — the operations of a cursor as data

The readers of `Bytes/Cursor.lean` have results of many types. Here they are one type of operation,
`Reading`, with one type of result, so that a sequence of them is a list and can be talked about as a
whole. A sequence goes on after an operation that fails, from the place where that left the cursor.
-/

set_option autoImplicit false

namespace JvmTrace

/-- An operation on a cursor. -/
inductive Reading where
  /-- The next byte, without moving. -/
  | peek
  | u8
  | i8
  | u16
  | i16
  | u32
  | i32
  | i64
  | bytes (n : Nat)
  | skip (n : Nat)
  | align (alignment : Nat) (positive : 0 < alignment)

namespace Reading

/-- What an operation gives. -/
inductive Result where
  | number (value : Int)
  | bytes (bytes : Bytes)
  | nothing
  deriving DecidableEq

/-- Does an operation. -/
def read : Reading → Reader Result
  | peek => return .number (← Reader.peek).toNat
  | u8 => return .number (← Reader.u8).toNat
  | i8 => return .number (← Reader.i8).toInt
  | u16 => return .number (← Reader.u16).toNat
  | i16 => return .number (← Reader.i16).toInt
  | u32 => return .number (← Reader.u32).toNat
  | i32 => return .number (← Reader.i32).toInt
  | i64 => return .number (← Reader.i64).toInt
  | bytes n => return .bytes (← Reader.take n)
  | skip n => do
    Reader.skip n
    return .nothing
  | align alignment positive => return .number (← Reader.align alignment positive)

/-- Does an operation: what it gives, and the cursor afterwards. -/
def perform (r : Reading) (c : Cursor) : Except Error Result × Cursor :=
  match r.read c with
  | .ok result c' => (.ok result, c')
  | .error e c' => (.error e, c')

/-- Does a sequence of operations, the next one from where the last one left the cursor: what each gives,
and the cursor after it. -/
def performAll (c : Cursor) : List Reading → List (Except Error Result × Cursor)
  | [] => []
  | r :: rest =>
    let answer := r.perform c
    answer :: performAll answer.2 rest

end Reading

end JvmTrace
