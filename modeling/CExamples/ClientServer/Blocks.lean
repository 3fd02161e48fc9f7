import CExamples.ClientServer.Client
import CExamples.Common.Ownership

/-!
# Messages and responses with their blocks (`client_server/src/protocol.c`)

The functions of `protocol.c` once more, as programs that allocate and free the blocks their
pointers lead to: reading a block that has been freed, and freeing one twice, are faults. What they
store is what the functions of `Protocol.lean` store (`owns_createMessage`, `owns_parseMessage`), so
uses of a pointer that leads to no block are undefined as they are there.
-/

namespace CExamples.ClientServer

open C Holding

/-- Blocks of the heap, and open files. -/
inductive Kind
  | block
  | file
deriving DecidableEq, Repr

/-- A pointer with the address of its block. -/
inductive BlockPtr
  | null
  | block (address : ℕ) (bytes : List UInt8)
  | indeterminate
deriving DecidableEq, Repr

namespace BlockPtr

def value : BlockPtr → Ptr
  | null => .null
  | block _ bytes => .block bytes
  | indeterminate => .indeterminate

/-- The block that the pointer leads to. -/
def owned : BlockPtr → Finset (Kind × ℕ)
  | null => ∅
  | block address _ => {(.block, address)}
  | indeterminate => ∅

/-- A pointer to a block, with its address. -/
def ofPtr (address : ℕ) : Ptr → BlockPtr
  | .null => null
  | .block bytes => block address bytes
  | .indeterminate => indeterminate

/-- `free`. -/
def free : BlockPtr → Holding Kind Unit
  | null => pure ()
  | block address _ => release .block address
  | indeterminate => liftM (none : Option Unit)

/-- A use of what the pointer leads to. -/
def access : BlockPtr → Holding Kind Unit
  | null => pure ()
  | block address _ => use .block address
  | indeterminate => pure ()

/-- A use of what the pointer leads to as a C string. -/
def toCString (p : BlockPtr) : Holding Kind CString := do
  p.access
  p.value.toCString

theorem owns_free (p : BlockPtr) :
    Owns p.owned p.free p.value.free (fun _ => ()) fun _ => ∅ := by
  cases p with
  | null => exact owns_pure rfl rfl
  | block address bytes => exact owns_release _ _
  | indeterminate => exact owns_none

theorem owns_access (p : BlockPtr) :
    Owns p.owned p.access (some ()) (fun _ => ()) fun _ => p.owned := by
  cases p with
  | null => exact owns_pure rfl rfl
  | block address bytes => exact owns_use _ _
  | indeterminate => exact owns_pure rfl rfl

theorem owns_toCString (p : BlockPtr) :
    Owns p.owned p.toCString p.value.toCString id fun _ => p.owned :=
  owns_bind (g := fun _ => p.value.toCString) p.owns_access fun _ _ => owns_lift _

/-- A pointer that leads to no block owns none. -/
theorem owned_eq_empty {p : BlockPtr} (h : ∀ bytes, p.value ≠ .block bytes) : p.owned = ∅ := by
  cases p with
  | null => rfl
  | block address bytes => exact absurd rfl (h bytes)
  | indeterminate => rfl

/-- Blocks are no files. -/
theorem disjoint_owned_file (p : BlockPtr) (file : ℕ) :
    Disjoint p.owned {(Kind.file, file)} := by
  cases p <;> simp [owned]

end BlockPtr

namespace Heap

/-! ## Data -/

structure Message where
  data : BlockPtr
  size : UInt32
deriving DecidableEq, Repr

def Message.value (message : Message) : ClientServer.Message where
  data := message.data.value
  size := message.size

/-- A local `Message` before `create_message` has set it. -/
def Message.uninitialized : Message where
  data := .indeterminate
  size := 0

structure Response where
  header : Header
  payload : BlockPtr
deriving DecidableEq, Repr

def Response.value (response : Response) : ClientServer.Response where
  header := response.header
  payload := response.payload.value

/-! ## Functions -/

/-- `create_message`. -/
def createMessage (malloc : Option (ℕ → UInt8)) (header : Header) (payload : Ptr)
    (message : Message) : Holding Kind (ℕ × Message) :=
  if maxPayloadSize < header.payloadSize.toNat then
    return (errorMaxPayloadSizeExceeded, message)
  else
    match malloc with
    | none =>
      let size := UInt32.ofNat (headerSize + header.payloadSize.toNat)
      return (errorMemoryAllocationFailed, { data := .null, size })
    | some junk => do
      let address ← acquire .block
      -- What is stored in the new block.
      let (rvalue, stored) ←
        ClientServer.createMessage (some junk) header payload message.value
      return (rvalue, { data := .ofPtr address stored.data, size := stored.size })

/-- `parse_message`. -/
def parseMessage (malloc : Bool) (data : List UInt8) (dataSize : UInt32) (response : Response) :
    Holding Kind (ℕ × Response) := do
  match ← liftM (extractHeader data dataSize) with
  | .error status => return (status, response)
  | .ok header =>
    if 0 < header.payloadSize then
      if dataSize.toNat < headerSize + header.payloadSize.toNat then
        return (errorInvalidDataSize, { response with header })
      else if malloc then
        let address ← acquire .block
        let payload ← slice data headerSize header.payloadSize.toNat
        return (statusOk, { header, payload := .block address payload })
      else return (errorMemoryAllocationFailed, { header, payload := .null })
    else return (statusOk, { header, payload := .null })

/-- The bytes that `send` is given. -/
def Message.bytes (message : Message) : Holding Kind (List UInt8) := do
  message.data.access
  ClientServer.Message.bytes message.value

/-- `destroy_message`. -/
def destroyMessage (message : Message) : Holding Kind Message := do
  message.data.free
  return { data := .null, size := 0 }

/-- `destroy_response`. -/
def destroyResponse (response : Response) : Holding Kind Response := do
  response.payload.free
  return { header := .init, payload := .null }

/-! ## What they own -/

/-- A message for which there is memory is created, and has a block. -/
theorem exists_block_of_createMessage {junk : ℕ → UInt8} {header : Header} {payload : Ptr}
    {message stored : ClientServer.Message} {rvalue : ℕ}
    (hsize : ¬maxPayloadSize < header.payloadSize.toNat)
    (h : ClientServer.createMessage (some junk) header payload message = some (rvalue, stored)) :
    rvalue = statusOk ∧ ∃ bytes, stored.data = .block bytes := by
  rw [ClientServer.createMessage, if_neg hsize] at h
  simp only [Option.bind_eq_bind, Option.bind_eq_some_iff] at h
  obtain ⟨_, -, _, -, _, -, _, -, _, -, hstored⟩ := h
  split at hstored
  · obtain ⟨_, -, data, -, hvalue, hdata⟩ := by
      simpa [Option.bind_eq_some_iff] using hstored
    exact ⟨hvalue.symm, data, by rw [← hdata]⟩
  · cases hstored
    exact ⟨rfl, _, rfl⟩

/-- A message that could not be created has none. -/
theorem ne_block_of_createMessage {malloc : Option (ℕ → UInt8)} {header : Header} {payload : Ptr}
    {rvalue : ℕ} {message : ClientServer.Message}
    (h : ClientServer.createMessage malloc header payload .uninitialized = some (rvalue, message))
    (hrvalue : rvalue ≠ statusOk) (bytes : List UInt8) : message.data ≠ .block bytes := by
  by_cases hsize : maxPayloadSize < header.payloadSize.toNat
  · rw [ClientServer.createMessage, if_pos hsize] at h
    cases h
    exact Ptr.noConfusion
  · cases malloc with
    | none =>
      rw [ClientServer.createMessage, if_neg hsize] at h
      cases h
      exact Ptr.noConfusion
    | some junk => exact absurd (exists_block_of_createMessage hsize h).1 hrvalue

theorem value_ofPtr (address : ℕ) (p : Ptr) : (BlockPtr.ofPtr address p).value = p := by
  cases p <;> rfl

theorem owns_createMessage (malloc : Option (ℕ → UInt8)) (header : Header) (payload : Ptr) :
    Owns ∅ (createMessage malloc header payload .uninitialized)
      (ClientServer.createMessage malloc header payload .uninitialized)
      (fun r => (r.1, r.2.value)) fun r => r.2.data.owned := by
  unfold createMessage
  split
  · rename_i hsize
    rw [ClientServer.createMessage, if_pos hsize]
    exact owns_pure rfl rfl
  · rename_i hsize
    cases malloc with
    | none =>
      rw [ClientServer.createMessage, if_neg hsize]
      exact owns_pure rfl rfl
    | some junk =>
      refine owns_acquire_bind Kind.block fun address => owns_bind_pure (owns_lift _) ?_ ?_
      · rintro ⟨rvalue, stored⟩ hstored
        obtain ⟨-, bytes, hbytes⟩ := exists_block_of_createMessage hsize hstored
        simp only [hbytes, BlockPtr.ofPtr, BlockPtr.owned]
      · rintro ⟨rvalue, stored⟩
        simp only [Message.value, value_ofPtr, id]

theorem owns_parseMessage (malloc : Bool) (data : List UInt8) (dataSize : UInt32)
    (header : Header) :
    Owns ∅ (parseMessage malloc data dataSize { header, payload := .indeterminate })
      (ClientServer.parseMessage malloc data dataSize { header, payload := .indeterminate })
      (fun r => (r.1, r.2.value)) fun r => r.2.payload.owned := by
  refine owns_bind (owns_lift _) ?_
  rintro (status | header) -
  · exact owns_pure rfl rfl
  · dsimp only [id]
    refine owns_ite (fun _ => owns_ite (fun _ => owns_pure rfl rfl) fun _ => ?_) fun _ =>
      owns_pure rfl rfl
    refine owns_ite (fun _ => ?_) fun _ => owns_pure rfl rfl
    exact owns_acquire_bind Kind.block fun address =>
      owns_bind (owns_lift _) fun payload _ => owns_pure rfl rfl

/-- A response that could not be parsed has no block. -/
theorem ne_block_of_parseMessage {malloc : Bool} {data : List UInt8} {dataSize : UInt32}
    {header : Header} {rvalue : ℕ} {response : ClientServer.Response}
    (h : ClientServer.parseMessage malloc data dataSize { header, payload := .indeterminate } =
      some (rvalue, response))
    (hrvalue : rvalue ≠ statusOk) (bytes : List UInt8) : response.payload ≠ .block bytes := by
  rw [ClientServer.parseMessage, Option.bind_eq_bind, Option.bind_eq_some_iff] at h
  obtain ⟨status | header, -, h⟩ := h
  · cases h
    exact Ptr.noConfusion
  · dsimp only at h
    split at h
    · split at h
      · cases h
        exact Ptr.noConfusion
      · split at h
        · obtain ⟨payload, -, h⟩ := Option.bind_eq_some_iff.mp h
          cases h
          exact absurd rfl hrvalue
        · cases h
          exact Ptr.noConfusion
    · cases h
      exact absurd rfl hrvalue

theorem owns_bytes (message : Message) :
    Owns message.data.owned message.bytes (ClientServer.Message.bytes message.value) id fun _ =>
      message.data.owned :=
  owns_bind (message.data.owns_access) fun _ _ => owns_lift _

theorem owns_destroyMessage (message : Message) :
    Owns message.data.owned (destroyMessage message) (ClientServer.destroyMessage message.value)
      Message.value fun _ => ∅ :=
  owns_bind message.data.owns_free fun _ _ => owns_pure rfl rfl

theorem owns_destroyResponse (response : Response) :
    Owns response.payload.owned (destroyResponse response)
      (ClientServer.destroyResponse response.value) Response.value fun _ => ∅ :=
  owns_bind response.payload.owns_free fun _ _ => owns_pure rfl rfl

end Heap

end CExamples.ClientServer
