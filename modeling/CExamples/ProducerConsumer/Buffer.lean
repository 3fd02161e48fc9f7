import CExamples.Common.CLang

/-!
# The request buffer (`producer_consumer/src/buffer.c`)

`Buffer.get` and `Buffer.put` are `none` where the C code would leave the range of `int`, divide by
zero, or touch a slot out of bounds or never written.
-/

namespace CExamples.ProducerConsumer

open C

/-- `HttpRequest`: the request's id and the text in its `data`, up to the terminator. -/
structure HttpRequest where
  requestId : ℤ
  data : List UInt8
deriving DecidableEq, Repr

/-- What `get` returns for an empty buffer. -/
def HttpRequest.sentinel : HttpRequest := { requestId := -1, data := [] }

/-- `Buffer`. The slots of `buffer` are allocated without being written, so a slot is `none` until
the first `put` into it. -/
structure Buffer where
  buffer : List (Option HttpRequest)
  size : ℤ
  getIndex : ℤ
  putIndex : ℤ
  count : ℤ
  totalPuts : ℤ
deriving DecidableEq, Repr

/-- `create_buffer`, with its allocations succeeding (`malloc_or_die`). -/
def createBuffer (size : ℤ) : Buffer where
  buffer := List.replicate size.toNat none
  size := size
  getIndex := 0
  putIndex := 0
  count := 0
  totalPuts := 0

namespace Buffer

def get (b : Buffer) : Option (HttpRequest × Buffer) :=
  if b.count = 0 then some (.sentinel, b)
  else do
    let value ← load b.buffer b.getIndex
    let getIndex ← mod 32 (← add 32 b.getIndex 1) b.size
    let count ← sub 32 b.count 1
    return (value, { b with getIndex, count })

def put (b : Buffer) (value : HttpRequest) : Option (Bool × Buffer) :=
  if b.count = b.size then some (false, b)
  else do
    let buffer ← store b.buffer b.putIndex value
    let putIndex ← mod 32 (← add 32 b.putIndex 1) b.size
    let count ← add 32 b.count 1
    let totalPuts ← add 32 b.totalPuts 1
    return (true, { b with buffer, putIndex, count, totalPuts })

end Buffer

end CExamples.ProducerConsumer
