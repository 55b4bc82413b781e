import Mathlib

/-! The byte buffer of buffer.hpp and the endpoint of endpoint.hpp. -/
namespace Yonaa

abbrev Byte := UInt8

/-- A vector holds fewer than 2^64 bytes. -/
structure Buffer where
  data : List Byte := []
  size_lt : data.length < 2^64 := by decide
deriving DecidableEq

namespace Buffer

def ofList (bytes : List Byte) : Buffer :=
  ⟨bytes.take (2^64-1), by simp only [List.length_take]; omega⟩

/-- `buffer(size)`: a vector resized to `size`, so filled with zero bytes. -/
def ofSize (size : Nat) : Buffer := ofList (List.replicate size 0)

def size (b : Buffer) : Nat := b.data.length

def isEmpty (b : Buffer) : Bool := b.size == 0

/-- `vector::resize`: keep the first bytes, pad with zero bytes. -/
def resizeTo : Nat → List Byte → List Byte
  | 0, _ => []
  | n+1, [] => 0 :: resizeTo n []
  | n+1, x::xs => x :: resizeTo n xs

def resize (b : Buffer) (newSize : Nat) : Buffer := ofList (resizeTo newSize b.data)

/-- What a call given `data()` leaves when it writes `bytes` at the front. -/
def overwrite (b : Buffer) (bytes : List Byte) : Buffer :=
  ofList (bytes ++ b.data.drop bytes.length)

theorem data_ofList {bytes : List Byte} (h : bytes.length < 2^64) :
    (ofList bytes).data = bytes := List.take_of_length_le (by omega)

theorem resizeTo_append (xs ys : List Byte) : resizeTo xs.length (xs++ys) = xs := by
  induction xs with
  | nil => rfl
  | cons x xs ih => simp [resizeTo,ih]

/-- The bytes written into a fresh buffer are the buffer after the resize. -/
theorem resize_overwrite (n : Nat) {bytes : List Byte} (h : bytes.length < 2^64) :
    ((ofSize n).overwrite bytes).resize bytes.length = ofList bytes := by
  have hd : ((ofSize n).overwrite bytes).data =
      bytes++((ofSize n).data.drop bytes.length).take (2^64-1-bytes.length) := by
    change (bytes++(ofSize n).data.drop bytes.length).take (2^64-1) = _
    rw [List.take_append,List.take_of_length_le (by omega)]
  rw [resize,hd,resizeTo_append]

end Buffer

/-- A native socket address and the protocol it belongs to. -/
structure Endpoint where
  protocol : Int
  storage : Buffer
deriving DecidableEq

namespace Endpoint

def storageSize : Nat := 128

def empty : Endpoint := ⟨0, Buffer.ofSize storageSize⟩

def fromNativeAddress (protocol : Int) (addr : List Byte) : Endpoint :=
  ⟨protocol, (Buffer.ofSize addr.length).overwrite addr⟩

end Endpoint

/-- The `sockaddr_in` of a.b.c.d, port 5000. -/
def inetAddress (a b c d : Byte) : List Byte := [2,0,19,136,a,b,c,d,0,0,0,0,0,0,0,0]

end Yonaa
