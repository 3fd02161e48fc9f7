import CExamples.ClientServer.ServerRuns
import CExamples.ClientServer.TerminalReply

/-!
# Files that shrink

`send_file_contents` plans its chunks from the size that `ftell` returns and marks the last of them
by its index, whatever `fread` finds. A file that turns out shorter is sent cut off, and reported as
served (`not_truncated_iff`).
-/

namespace CExamples.ClientServer

open C

/-! ## The bytes of the file in a reply -/

/-- The payload of a message, if it is a chunk. -/
def chunkBytes (data : List UInt8) : List UInt8 :=
  match Frame.decode data with
  | some (frame, _) =>
    if frame.header.messageType = messageResponseChunk ∨
        frame.header.messageType = messageResponseLastChunk then
      frame.payload
    else []
  | none => []

/-- The payloads of the chunks that a reply sends. -/
def Reply.fileBytes (reply : Reply) : List UInt8 :=
  reply.sent.flatMap chunkBytes

def Reply.SendsLastChunk (reply : Reply) : Prop :=
  ∃ frame : Frame, frame.encode ∈ reply.sent ∧ frame.header.messageType = messageResponseLastChunk

def Reply.EndsInError (reply : Reply) : Prop :=
  ∃ (before : List (List UInt8)) (error : Frame),
    reply.sent = before ++ [error.encode] ∧ IsErrorReply error

/-- A reply that reports success with a last chunk holds the whole file, and one that does not hold
it ends in an error. -/
structure Reply.NotTruncated (reply : Reply) (fileSize : ℤ) : Prop where
  complete : reply.rvalue = statusOk → reply.SendsLastChunk →
    (reply.fileBytes.length : ℤ) = fileSize
  reported : (reply.fileBytes.length : ℤ) ≠ fileSize →
    reply.EndsInError ∧ reply.rvalue ≠ statusOk

theorem chunkBytes_encode (frame : Frame) :
    chunkBytes frame.encode =
      if frame.header.messageType = messageResponseChunk ∨
          frame.header.messageType = messageResponseLastChunk then
        frame.payload
      else [] := by
  have hdecode := Frame.decode_encode_append frame []
  rw [List.append_nil] at hdecode
  rw [chunkBytes, hdecode]

theorem chunkBytes_chunkFrame (env : ServerEnv) (totalChunks : UInt32) (chunkIndex : ℕ) :
    chunkBytes (chunkFrame env totalChunks chunkIndex).encode = env.fread chunkIndex := by
  rw [chunkBytes_encode, if_pos (messageType_chunkFrame env totalChunks chunkIndex)]
  rfl

/-! ## The chunks that are built -/

/-- The number of chunks for which there is memory, up to the first for which there is none. -/
def createdChunks (env : ServerEnv) (totalChunks : ℕ) : ℕ :=
  ((List.range totalChunks).takeWhile fun i => (env.chunkMalloc i).isSome).length

theorem createdChunks_eq {env : ServerEnv} {totalChunks n : ℕ} (hle : n ≤ totalChunks)
    (hcreated : ∀ i < n, env.chunkMalloc i ≠ none)
    (hfails : n < totalChunks → env.chunkMalloc n = none) : createdChunks env totalChunks = n := by
  obtain ⟨k, rfl⟩ := Nat.exists_eq_add_of_le hle
  have hall : ∀ i ∈ List.range n, (env.chunkMalloc i).isSome = true := by
    intro i hi
    exact Option.isSome_iff_ne_none.mpr (hcreated i (List.mem_range.mp hi))
  rw [createdChunks, List.range_add, List.takeWhile_append_of_pos hall]
  cases k with
  | zero => simp
  | succ k =>
    rw [List.range_succ_eq_map, List.map_cons, Nat.add_zero, List.takeWhile_cons_of_neg]
    · simp
    · rw [hfails (by omega)]
      exact Bool.false_ne_true

/-- What was read for the chunks that are sent. -/
def readSize (env : ServerEnv) (n : ℕ) : ℕ :=
  ((List.range n).map fun i => (env.fread i).length).sum

theorem fileBytes_after_chunkEvents (env : ServerEnv) (totalChunks : UInt32) (n : ℕ)
    (tail : Reply) :
    (tail.after ((List.range n).flatMap (chunkEvents env totalChunks))).fileBytes.length =
      readSize env n + tail.fileBytes.length := by
  unfold Reply.fileBytes readSize
  rw [Reply.sent_after, sent_chunkEvents, List.map_map, List.flatMap_append, List.length_append,
    List.flatMap_map, List.length_flatMap]
  simp only [Function.comp_apply, chunkBytes_chunkFrame]

/-! ## The reply -/

theorem Reply.notTruncated_of_error {reply : Reply} (hends : reply.EndsInError)
    (hrvalue : reply.rvalue ≠ statusOk) (fileSize : ℤ) : reply.NotTruncated fileSize where
  complete hok := absurd hok hrvalue
  reported _ := ⟨hends, hrvalue⟩

/-- Without an error the whole file has to be there. -/
theorem Reply.notTruncated_iff_of_not_error {reply : Reply}
    (h : ¬(reply.EndsInError ∧ reply.rvalue ≠ statusOk)) (fileSize : ℤ) :
    reply.NotTruncated fileSize ↔ (reply.fileBytes.length : ℤ) = fileSize := by
  constructor
  · intro hnot
    by_contra hne
    exact h (hnot.reported hne)
  · intro heq
    exact ⟨fun _ _ => heq, fun hne => absurd heq hne⟩

/-- No chunk is an error reply. -/
theorem not_endsInError_of_chunks {reply : Reply} {env : ServerEnv} {totalChunks : UInt32}
    {indices : List ℕ}
    (hsent : reply.sent = (indices.map (chunkFrame env totalChunks)).map Frame.encode) :
    ¬reply.EndsInError := by
  rintro ⟨before, error, herror, htype, -⟩
  have hmem : error.encode ∈ (indices.map (chunkFrame env totalChunks)).map Frame.encode := by
    rw [← hsent, herror]
    simp
  rw [List.map_map, List.mem_map] at hmem
  obtain ⟨i, -, hencode⟩ := hmem
  obtain ⟨rfl, -⟩ := Frame.code.eq_of_append_eq (congrArg (· ++ []) hencode)
  exact messageType_chunkFrame_ne env totalChunks i htype

/-- Opening the file sends nothing. -/
theorem Reply.notTruncated_after_fopen (reply : Reply) (path : CString) (fileSize : ℤ) :
    (reply.after [.fopen path]).NotTruncated fileSize ↔ reply.NotTruncated fileSize :=
  ⟨fun h => ⟨h.complete, h.reported⟩, fun h => ⟨h.complete, h.reported⟩⟩

theorem LoopEnd.notTruncated_iff {env : ServerEnv} {totalChunks : UInt32} {n : ℕ} {tail : Reply}
    (h : LoopEnd env totalChunks n tail) (hsend : ∀ n data, env.send n data = data.length)
    (fileSize : ℤ) :
    (tail.after ((List.range n).flatMap (chunkEvents env totalChunks))).NotTruncated fileSize ↔
      (n < totalChunks.toNat ∧ env.errorMalloc ≠ none) ∨ (readSize env n : ℤ) = fileSize := by
  have hbytes := fileBytes_after_chunkEvents env totalChunks n tail
  have hsent : (tail.after ((List.range n).flatMap (chunkEvents env totalChunks))).sent =
      ((List.range n).map (chunkFrame env totalChunks)).map Frame.encode ++ tail.sent := by
    rw [Reply.sent_after, sent_chunkEvents]
  rcases h.le.lt_or_eq with hlt | hn
  · obtain ⟨hrvalue, hbreak, hanswer⟩ := h.error_of_lt hsend hlt
    by_cases hmalloc : env.errorMalloc = none
    · -- The reply breaks off behind the chunks.
      have htail : tail.sent = [] := hbreak hmalloc
      rw [htail, List.append_nil] at hsent
      have hzero : tail.fileBytes = [] := by
        rw [Reply.fileBytes, htail]
        rfl
      rw [Reply.notTruncated_iff_of_not_error fun h => not_endsInError_of_chunks hsent h.1, hbytes,
        hzero, or_iff_right fun h => h.2 hmalloc]
      rfl
    · obtain ⟨error, herror, htail⟩ := hanswer hmalloc
      rw [htail] at hsent
      apply iff_of_true
      · exact Reply.notTruncated_of_error ⟨_, error, hsent, herror⟩ hrvalue fileSize
      · exact .inl ⟨hlt, hmalloc⟩
  · rw [h.eq_of_finished hn] at hbytes ⊢
    rw [Reply.notTruncated_iff_of_not_error (fun h => h.2 rfl), hbytes, or_iff_right]
    · rfl
    · exact fun h => h.1.ne hn

/-- **Truncation.** With every message accepted whole, a file that was opened is not truncated
silently if and only if its size gives a number of chunks, and a chunk cannot be built and the error
reply can, or what was read for the chunks that were sent adds up to the size of the file. -/
theorem not_truncated_iff {env : ServerEnv} {fileName : CString}
    (hsend : ∀ n data, env.send n data = data.length)
    (hpath : (fullPath fileName).chars.length < 256)
    (hopen : env.fopen (fullPath fileName) = true) :
    (∃ reply, sendFileContents env fileName = some reply ∧ reply.NotTruncated env.ftell) ↔
      ∃ chunks, calculateTotalChunks env.ftell = some chunks ∧
        ((createdChunks env (UInt32.ofInt chunks).toNat < (UInt32.ofInt chunks).toNat ∧
            env.errorMalloc ≠ none) ∨
          (readSize env (createdChunks env (UInt32.ofInt chunks).toNat) : ℤ) = env.ftell) := by
  rw [sendFileContents_of_fopen hpath hopen]
  cases hchunks : calculateTotalChunks env.ftell with
  | none => exact iff_of_false nofun nofun
  | some chunks =>
    obtain ⟨n, tail, hsent, htail, hloop⟩ := exists_loopEnd env (UInt32.ofInt chunks)
    have hn : createdChunks env (UInt32.ofInt chunks).toNat = n := by
      apply createdChunks_eq htail.le
      · intro i hi
        exact (hsent i hi).1
      · -- The chunk at which the loop ended is accepted whole, if it is built at all.
        intro hlt
        by_contra hmalloc
        exact htail.not_chunkSent hlt ⟨hmalloc, hsend _ _⟩
    have hreply := htail.notTruncated_iff hsend env.ftell
    rw [← Reply.notTruncated_after_fopen _ (fullPath fileName), ← hn] at hreply
    rw [Option.bind_some, hloop, Option.map_some, ← hn]
    constructor
    · rintro ⟨reply, h, hnot⟩
      cases h
      exact ⟨chunks, rfl, hreply.mp hnot⟩
    · rintro ⟨_, ⟨⟩, h⟩
      exact ⟨_, rfl, hreply.mpr h⟩

/-- A file of one byte of which nothing can be read. -/
def emptied : ServerEnv :=
  { ServerEnv.oneByte with
    fread := fun _ => []
    length_fread_le := fun _ => Nat.zero_le _ }

/-- The file is served without its byte. -/
theorem emptied_truncated :
    (∀ n data, emptied.send n data = data.length) ∧
    (fullPath (.ofLiteral "one.txt")).chars.length < 256 ∧
    emptied.fopen (fullPath (.ofLiteral "one.txt")) = true ∧
    (sendFileContents emptied (.ofLiteral "one.txt")).map
      (fun reply => (reply.rvalue, reply.sent)) =
        some (statusOk, [[4, 1, 0, 0, 0, 0, 0, 0, 0, 0, 0]]) ∧
    ∀ reply, sendFileContents emptied (.ofLiteral "one.txt") = some reply →
      ¬reply.NotTruncated emptied.ftell := by
  have hrun : (sendFileContents emptied (.ofLiteral "one.txt")).map
      (fun reply => (reply.rvalue, reply.sent)) =
        some (statusOk, [[4, 1, 0, 0, 0, 0, 0, 0, 0, 0, 0]]) := by
    decide +kernel
  refine ⟨fun _ _ => rfl, by decide, rfl, hrun, ?_⟩
  intro reply hreply hnot
  rw [hreply, Option.map_some, Option.some.injEq, Prod.mk.injEq] at hrun
  have hbytes : reply.fileBytes = [] := by
    rw [Reply.fileBytes, hrun.2]
    decide +kernel
  have hreported := hnot.reported
  rw [hbytes] at hreported
  exact (hreported (by decide)).2 hrun.1

theorem not_truncated_iff_oneByte :
    (∃ reply, sendFileContents (.serving [65] (by decide)) (.ofLiteral "one.txt") = some reply ∧
      reply.NotTruncated 1) ↔
      ∃ chunks, calculateTotalChunks 1 = some chunks ∧
        ((createdChunks (.serving [65] (by decide)) (UInt32.ofInt chunks).toNat <
              (UInt32.ofInt chunks).toNat ∧
            (ServerEnv.serving [65] (by decide)).errorMalloc ≠ none) ∨
          (readSize (.serving [65] (by decide))
            (createdChunks (.serving [65] (by decide)) (UInt32.ofInt chunks).toNat) : ℤ) = 1) :=
  @not_truncated_iff (.serving [65] (by decide)) (.ofLiteral "one.txt") (fun _ _ => rfl)
    (by decide) rfl

end CExamples.ClientServer
