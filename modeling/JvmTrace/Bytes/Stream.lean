import JvmTrace.Bytes.BigEndian
import JvmTrace.Error

/-!
# Streams — where bytes come from and where they go

The library reads whole images and writes whole documents. What can fail about that is modelled here
and nothing else: a `Source` may break off before its end, and a `Sink` may run out of room.
-/

set_option autoImplicit false

namespace JvmTrace

/-- Bytes that arrive from elsewhere: those delivered, and the complaint with which delivery broke
off, if it did not end by itself. -/
structure Source where
  delivered : Bytes
  /-- Why no more arrived, if that was not the end. -/
  fault : Option String

namespace Source

/-- A source that ends after `bytes`. -/
def ofBytes (bytes : Bytes) : Source := ⟨bytes, none⟩

/-- A source that hands out `n` bytes and complains when asked for more. The end is only noticed by
asking once more after the last byte, so a source of exactly `n` bytes breaks as well. -/
def breakingAfter (n : Nat) (complaint : String) (bytes : Bytes) : Source :=
  if n ≤ bytes.length then ⟨bytes.take n, some complaint⟩ else ofBytes bytes

/-- All bytes up to the end, or the complaint. -/
def readToEnd (s : Source) : Except Error Bytes :=
  match s.fault with
  | none => .ok s.delivered
  | some complaint => .error (.io complaint)

end Source

/-- A place for output that takes `room` more bytes and then complains. -/
structure Sink where
  /-- How many bytes still fit. -/
  room : Nat
  /-- What is said when one more is offered. -/
  complaint : String

namespace Sink

/-- Writes `text` in UTF-8; the sink that is left has less room. -/
def write (s : Sink) (text : String) : Except Error Sink :=
  if text.utf8ByteSize ≤ s.room then .ok { s with room := s.room - text.utf8ByteSize }
  else .error (.serialization s.complaint)

end Sink

end JvmTrace
