import CExamples.ClientServer.ServerRuns

/-!
# One terminal reply to every file request

With every `send` accepted whole, the loop of `send_file_contents` ends in a last chunk or in an
error reply (`exists_sendChunks`), and so do the error paths before it. The loop needs a chunk to
send, though. `calculate_total_chunks` returns 0 for an empty file, for the `-1` of a failed `ftell`
and for every size whose number of chunks is a multiple of 2^32, and overflows close to the largest
`long`; in the first cases the server reports success without having sent anything
(`sendFileContents_terminates_iff`).
-/

namespace CExamples.ClientServer

open C

/-- The last chunk of a file. -/
def IsLastChunk (chunkIndex : ℕ) (frame : Frame) : Prop :=
  frame.header.messageType = messageResponseLastChunk ∧
    frame.header.status.toNat = statusOk ∧ frame.header.chunkIndex.toNat = chunkIndex

def IsErrorReply (frame : Frame) : Prop :=
  frame.header.messageType = messageResponse ∧ frame.header.status.toNat ≠ statusOk

/-- The reply sends chunks with the indices from `first` on and then one terminal message, and
reports success exactly if that is a last chunk. -/
def Reply.TerminatesFrom (first : ℕ) (reply : Reply) : Prop :=
  ∃ (chunks : List Frame) (terminal : Frame),
    reply.sent = chunks.map Frame.encode ++ [terminal.encode] ∧
    (∀ i (h : i < chunks.length), chunks[i].header.messageType = messageResponseChunk ∧
      chunks[i].header.chunkIndex.toNat = first + i) ∧
    (IsLastChunk (first + chunks.length) terminal ∨ IsErrorReply terminal) ∧
    (reply.rvalue = statusOk ↔ terminal.header.messageType = messageResponseLastChunk)

theorem IsErrorReply.messageType_ne {frame : Frame} (h : IsErrorReply frame) :
    frame.header.messageType ≠ messageResponseLastChunk := by
  rw [h.1]
  decide

/-- A lone error reply. -/
theorem Reply.terminatesFrom_of_error {reply : Reply} {frame : Frame}
    (hsent : reply.sent = [frame.encode]) (herror : IsErrorReply frame)
    (hrvalue : reply.rvalue ≠ statusOk) (first : ℕ) : reply.TerminatesFrom first := by
  refine ⟨[], frame, hsent, ?_, .inr herror, iff_of_false hrvalue herror.messageType_ne⟩
  intro i h
  cases h

/-- The first `n` chunks and a terminal message behind them. -/
theorem Reply.terminatesFrom_of_chunks (env : ServerEnv) {reply : Reply} {totalChunks : UInt32}
    {n : ℕ} (hn : n < totalChunks.toNat) {terminal : Frame}
    (hsent : reply.sent =
      ((List.range n).map (chunkFrame env totalChunks)).map Frame.encode ++ [terminal.encode])
    (hterminal : IsLastChunk n terminal ∨ IsErrorReply terminal)
    (hrvalue : reply.rvalue = statusOk ↔
      terminal.header.messageType = messageResponseLastChunk) : reply.TerminatesFrom 0 := by
  refine ⟨_, terminal, hsent, ?_, ?_, hrvalue⟩
  · intro i h
    rw [List.length_map, List.length_range] at h
    rw [List.getElem_map, List.getElem_range, Nat.zero_add]
    exact ⟨messageType_of_lt (by omega) _, toNat_chunkIndex (by omega) _⟩
  · rwa [List.length_map, List.length_range, Nat.zero_add]

/-! ## The loop -/

theorem LoopEnd.eq_of_finished {env : ServerEnv} {totalChunks : UInt32} {n : ℕ} {tail : Reply}
    (h : LoopEnd env totalChunks n tail) (hn : n = totalChunks.toNat) :
    tail = { rvalue := statusOk, events := [] } := by
  cases h with
  | finished _ => rfl
  | notCreated hlt _ => exact absurd hn hlt.ne
  | notSent hlt _ _ => exact absurd hn hlt.ne

/-- With every message accepted whole, a loop that stops early reports an error, and sends an error
reply if there is memory for one. -/
theorem LoopEnd.error_of_lt {env : ServerEnv} {totalChunks : UInt32} {n : ℕ} {tail : Reply}
    (h : LoopEnd env totalChunks n tail) (hsend : ∀ n data, env.send n data = data.length)
    (hlt : n < totalChunks.toNat) :
    tail.rvalue ≠ statusOk ∧ (env.errorMalloc = none → tail.sent = []) ∧
      (env.errorMalloc ≠ none → ∃ error : Frame, IsErrorReply error ∧
        tail.sent = [error.encode]) := by
  cases h with
  | finished hn => exact absurd hn hlt.ne
  | notSent _ hcreated hshort => exact absurd (hsend _ _) hshort
  | notCreated _ hnone =>
    rw [Reply.rvalue_after, Reply.sent_after_createMessage]
    by_cases hmalloc : env.errorMalloc = none
    · rw [errorReply, hmalloc]
      exact ⟨errorMemoryAllocationFailed_ne, fun _ => rfl, absurd rfl⟩
    · obtain ⟨hrvalue, hsent⟩ := errorReply_of_malloc hmalloc n commandRequestFile
        (UInt8.ofNat errorMemoryAllocationFailed)
        (length_chunkMessageError_lt n errorMemoryAllocationFailed)
      have hcode : (UInt8.ofNat errorMemoryAllocationFailed).toNat ≠ statusOk := by decide
      rw [hrvalue, hsent]
      refine ⟨hcode, fun h => absurd h hmalloc, fun _ => ⟨_, ?_, rfl⟩⟩
      exact ⟨rfl, hcode⟩

/-- The loop sends all chunks or stops with an error reply. -/
theorem exists_sendChunks {env : ServerEnv} (hsend : ∀ n data, env.send n data = data.length)
    (hmalloc : env.errorMalloc ≠ none) {totalChunks : UInt32} (hpos : 0 < totalChunks.toNat) :
    ∃ reply, sendChunks env totalChunks 0 totalChunks.toNat = some reply ∧
      reply.TerminatesFrom 0 := by
  obtain ⟨n, tail, -, htail, hreply⟩ := exists_loopEnd env totalChunks
  refine ⟨_, hreply, ?_⟩
  rcases htail.le.lt_or_eq with hlt | hn
  · obtain ⟨hrvalue, -, hanswer⟩ := htail.error_of_lt hsend hlt
    obtain ⟨error, herror, hsent⟩ := hanswer hmalloc
    apply Reply.terminatesFrom_of_chunks env hlt _ (.inr herror)
    · exact iff_of_false hrvalue herror.messageType_ne
    · rw [Reply.sent_after, sent_chunkEvents, hsent]
  · -- The last chunk is the terminal message.
    obtain ⟨last, rfl⟩ : ∃ last, n = last + 1 := Nat.exists_eq_add_one.mpr (by omega)
    have hlast : last < totalChunks.toNat := by omega
    have hsent : (Reply.after ((List.range (last + 1)).flatMap (chunkEvents env totalChunks))
        { rvalue := statusOk, events := [] }).sent =
          ((List.range last).map (chunkFrame env totalChunks)).map Frame.encode ++
            [(chunkFrame env totalChunks last).encode] := by
      rw [Reply.sent_after, sent_chunkEvents, List.range_succ, List.map_append, List.map_append]
      exact List.append_nil _
    have htype := messageType_of_last hn (env.fread last).length
    have hindex := toNat_chunkIndex hlast (env.fread last).length
    rw [htail.eq_of_finished hn]
    exact Reply.terminatesFrom_of_chunks env hlast hsent (.inl ⟨htype, rfl, hindex⟩)
      (iff_of_true rfl htype)

/-! ## The reply -/

/-- The file sizes for which the server plans a positive number of chunks, without an overflow. -/
def HasChunks (fileSize : ℤ) : Prop :=
  fileSize + 1024 < 2 ^ 63 ∧ ¬(2 ^ 32 : ℤ) ∣ (fileSize + 1023).tdiv 1024

/-- The replies to requests for a file that was opened. -/
theorem exists_sendChunks_iff {env : ServerEnv} (hsend : ∀ n data, env.send n data = data.length)
    (hmalloc : env.errorMalloc ≠ none) (path : CString) :
    (∃ reply, ((calculateTotalChunks env.ftell).bind fun chunks =>
        (sendChunks env (UInt32.ofInt chunks) 0 (UInt32.ofInt chunks).toNat).map
          (Reply.after [.fopen path])) = some reply ∧ reply.TerminatesFrom 0) ↔
      HasChunks env.ftell := by
  rw [calculateTotalChunks_eq env.ftell_inRange, HasChunks]
  by_cases hfits : env.ftell + 1024 < 2 ^ 63
  swap
  · rw [if_neg hfits]
    constructor
    · rintro ⟨reply, h, -⟩
      cases h
    · rintro ⟨h, -⟩
      exact absurd h hfits
  rw [if_pos hfits, Option.bind_some, Int.dvd_iff_emod_eq_zero, ← toNat_ofInt_bmod]
  generalize UInt32.ofInt (((env.ftell + 1023).tdiv 1024).bmod (2 ^ 32)) = totalChunks
  rcases Nat.eq_zero_or_pos totalChunks.toNat with hzero | hpos
  · -- The loop does not run: nothing is sent.
    rw [hzero]
    constructor
    · rintro ⟨reply, h, chunks, terminal, hsent, -⟩
      cases h
      have hnothing : [] = _ := hsent
      simp at hnothing
    · rintro ⟨-, h⟩
      exact absurd rfl h
  · obtain ⟨reply, hreply, hterminates⟩ := exists_sendChunks hsend hmalloc hpos
    rw [hreply]
    constructor
    · intro _
      exact ⟨hfits, by omega⟩
    · intro _
      exact ⟨_, rfl, hterminates⟩

/-- The reply to a request whose path does not fit in its buffer. -/
theorem exists_fullPathReply {env : ServerEnv} (hmalloc : env.errorMalloc ≠ none)
    {fileName : CString} (hlong : 256 ≤ (fullPath fileName).chars.length) :
    ∃ reply, sendFileContents env fileName = some reply ∧ reply.TerminatesFrom 0 := by
  have hcode : (UInt8.ofNat errorFileOpenFailed).toNat ≠ statusOk := by decide
  obtain ⟨-, hsent⟩ := errorReply_of_malloc hmalloc 0 commandRequestFile
    (UInt8.ofNat errorFileOpenFailed) (length_fullPathError_lt (snprintf 256 (fullPath fileName)).1)
  refine ⟨_, sendFileContents_of_long hlong, ?_⟩
  apply Reply.terminatesFrom_of_error
  · exact hsent
  · exact ⟨rfl, hcode⟩
  · exact hcode

/-- The reply to a request for a file that cannot be opened. -/
theorem exists_openReply {env : ServerEnv} (hmalloc : env.errorMalloc ≠ none) {fileName : CString}
    (hshort : (fullPath fileName).chars.length < 256)
    (hopen : env.fopen (fullPath fileName) = false) :
    ∃ reply, sendFileContents env fileName = some reply ∧ reply.TerminatesFrom 0 := by
  have hcode : (UInt8.ofNat errorFileNotFound).toNat ≠ statusOk := by decide
  obtain ⟨hrvalue, hsent⟩ := errorReply_of_malloc hmalloc 0 commandRequestFile
    (UInt8.ofNat errorFileNotFound) (length_openError_lt (fullPath fileName))
  refine ⟨_, sendFileContents_of_not_fopen hshort hopen, ?_⟩
  apply Reply.terminatesFrom_of_error
  · rw [Reply.sent_after_fopen, hsent]
  · exact ⟨rfl, hcode⟩
  · rwa [Reply.rvalue_after, hrvalue]

/-- **Terminal replies.** With every message accepted whole and memory for the error replies, a file
request is answered by chunks and one terminal message if and only if the path is too long, the file
cannot be opened, or the server plans a positive number of chunks. -/
theorem sendFileContents_terminates_iff (env : ServerEnv) (fileName : CString)
    (hsend : ∀ n data, env.send n data = data.length) (hmalloc : env.errorMalloc ≠ none) :
    (∃ reply, sendFileContents env fileName = some reply ∧ reply.TerminatesFrom 0) ↔
      256 ≤ (fullPath fileName).chars.length ∨ env.fopen (fullPath fileName) = false ∨
        HasChunks env.ftell := by
  rcases le_or_gt 256 (fullPath fileName).chars.length with hlong | hshort
  · exact iff_of_true (exists_fullPathReply hmalloc hlong) (.inl hlong)
  rcases Bool.eq_false_or_eq_true (env.fopen (fullPath fileName)) with hopen | hopen
  · rw [sendFileContents_of_fopen hshort hopen, exists_sendChunks_iff hsend hmalloc,
      or_iff_right hshort.not_ge, or_iff_right]
    simp [hopen]
  · exact iff_of_true (exists_openReply hmalloc hshort hopen) (.inr (.inl hopen))

/-- An empty file is answered by nothing, and reported as served. -/
theorem emptyFile_sends_nothing :
    (∀ n data, (ServerEnv.serving [] (by decide)).send n data = data.length) ∧
    (ServerEnv.serving [] (by decide)).errorMalloc ≠ none ∧
    (∃ reply, sendFileContents (.serving [] (by decide)) (.ofLiteral "empty.txt") = some reply ∧
      reply.rvalue = statusOk ∧ reply.sent = []) ∧
    ¬∃ reply, sendFileContents (.serving [] (by decide)) (.ofLiteral "empty.txt") = some reply ∧
      reply.TerminatesFrom 0 := by
  have hreply : sendFileContents (.serving [] (by decide)) (.ofLiteral "empty.txt") =
      some { rvalue := statusOk, events := [.fopen (fullPath (.ofLiteral "empty.txt"))] } := by
    rw [sendFileContents_of_lt (by decide)]
    rfl
  refine ⟨fun _ _ => rfl, nofun, ⟨_, hreply, rfl, rfl⟩, ?_⟩
  rintro ⟨reply, h, chunks, terminal, hsent, -⟩
  rw [hreply] at h
  cases h
  have hnothing : [] = _ := hsent
  simp at hnothing

theorem sendFileContents_terminates_oneByte :
    (∃ reply, sendFileContents (.serving [65] (by decide)) (.ofLiteral "one.txt") = some reply ∧
      reply.TerminatesFrom 0) ↔
      256 ≤ (fullPath (.ofLiteral "one.txt")).chars.length ∨
        (ServerEnv.serving [65] (by decide)).fopen (fullPath (.ofLiteral "one.txt")) = false ∨
          HasChunks 1 :=
  sendFileContents_terminates_iff (.serving [65] (by decide)) (.ofLiteral "one.txt")
    (fun _ _ => rfl) nofun

end CExamples.ClientServer
