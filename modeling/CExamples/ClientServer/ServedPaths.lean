import CExamples.ClientServer.ServerRuns
import CExamples.Common.LexicalPath

/-!
# The paths the server opens

Both commands put the file name of a request behind `SERVER_FILE_PATH` and check only the length of
the result. The path is below that directory if and only if the file name, read component by
component, enters every directory again that it leaves (`handleRequest_opened_iff`).
-/

namespace CExamples.ClientServer

open C LexicalPath

/-- `'/'`. -/
def separator : UInt8 := 47

/-- `'.'`. -/
def dot : UInt8 := 46

/-! ## The calls -/

/-- The path of a call that opens or examines a file. -/
def Event.opened : Event → Option CString
  | .stat path => some path
  | .fopen path => some path
  | .createMessage _ _ => none
  | .send _ _ => none

/-- The paths that `stat` and `fopen` are called with, in order. -/
def Reply.opened (reply : Reply) : List CString :=
  reply.events.filterMap Event.opened

theorem Reply.opened_after (reply : Reply) (events : List Event) :
    (reply.after events).opened = events.filterMap Event.opened ++ reply.opened := by
  unfold Reply.opened
  rw [Reply.events_after, List.filterMap_append]

theorem opened_errorReply (env : ServerEnv) (sent : ℕ) (command errorCode : UInt8)
    (errorMessage : CString) :
    (errorReply env sent command errorCode errorMessage).opened = [] := by
  unfold errorReply
  cases env.errorMalloc with
  | none => rfl
  | some junk => rfl

theorem LoopEnd.opened_eq_nil {env : ServerEnv} {totalChunks : UInt32} {n : ℕ} {tail : Reply}
    (h : LoopEnd env totalChunks n tail) : tail.opened = [] := by
  cases h with
  | finished hn => rfl
  | notCreated hlt hmalloc => rw [Reply.opened_after, opened_errorReply]; rfl
  | notSent hlt hmalloc hsend => rw [Reply.opened_after, opened_errorReply]; rfl

theorem opened_chunkEvents (env : ServerEnv) (totalChunks : UInt32) (indices : List ℕ) :
    (indices.flatMap (chunkEvents env totalChunks)).filterMap Event.opened = [] := by
  induction indices with
  | nil => rfl
  | cons i indices ih =>
    rw [List.flatMap_cons, List.filterMap_append, ih]
    rfl

section Handlers

variable {env : ServerEnv} {fileName : CString} {reply : Reply}

theorem opened_sendFileMetadata (h : sendFileMetadata env fileName = some reply) :
    reply.opened = if 256 ≤ (fullPath fileName).chars.length then [] else [fullPath fileName] := by
  cases metadataOutcome h with
  | pathTooLong hlong =>
    rw [if_pos hlong]
    exact opened_errorReply _ _ _ _ _
  | notFound hshort hstat =>
    rw [if_neg hshort.not_ge, Reply.opened_after]
    exact congrArg _ (opened_errorReply _ _ _ _ _)
  | notCreated hshort hstat hmalloc =>
    rw [if_neg hshort.not_ge, Reply.opened_after]
    exact congrArg _ (opened_errorReply _ _ _ _ _)
  | notSent hshort hstat hmalloc hsend =>
    rw [if_neg hshort.not_ge, Reply.opened_after]
    exact congrArg _ (opened_errorReply _ _ _ _ _)
  | sent hshort hstat hmalloc hsend =>
    rw [if_neg hshort.not_ge]
    rfl

theorem opened_sendFileContents (h : sendFileContents env fileName = some reply) :
    reply.opened = if 256 ≤ (fullPath fileName).chars.length then [] else [fullPath fileName] := by
  cases contentsOutcome h with
  | pathTooLong hlong =>
    rw [if_pos hlong]
    exact opened_errorReply _ _ _ _ _
  | notOpened hshort hopen =>
    rw [if_neg hshort.not_ge, Reply.opened_after]
    exact congrArg _ (opened_errorReply _ _ _ _ _)
  | opened hshort hopen hchunks hsent htail =>
    rw [if_neg hshort.not_ge, Reply.opened_after, Reply.opened_after, opened_chunkEvents,
      htail.opened_eq_nil]
    rfl

end Handlers

/-! ## Below the served directory -/

/-- The names of the served directory, the innermost first. -/
def servedDirectory : List (List UInt8) :=
  walk [] (moves separator dot serverFilePath.chars)

/-- The path, normalised, has the components of `SERVER_FILE_PATH` in front. -/
def IsServed (path : CString) : Prop :=
  normalize separator dot serverFilePath.chars <+: normalize separator dot path.chars

/-- The directories that the file name leaves are the first that it enters again. -/
def StaysInside (fileName : CString) : Prop :=
  servedDirectory.take (relative (moves separator dot fileName.chars)).ups <:+
    (relative (moves separator dot fileName.chars)).names

instance (path : CString) : Decidable (IsServed path) :=
  inferInstanceAs (Decidable (_ <+: _))

instance (fileName : CString) : Decidable (StaysInside fileName) :=
  inferInstanceAs (Decidable (_ <:+ _))

example : normalize separator dot serverFilePath.chars =
    [ascii "code", ascii "c_examples", ascii "client_server", ascii "tests",
      ascii "fake_server_files"] := by
  decide +kernel

theorem isServed_fullPath_iff (fileName : CString) :
    IsServed (fullPath fileName) ↔ StaysInside fileName := by
  have hchars : (fullPath fileName).chars =
      serverFilePath.chars ++ separator :: fileName.chars := by
    rw [fullPath, CString.chars_append, CString.chars_append, List.append_assoc]
    rfl
  unfold IsServed
  rw [hchars]
  exact normalize_prefix_iff separator dot serverFilePath.chars fileName.chars

/-- A file name without a component that goes up stays inside. -/
theorem staysInside_of_up_notMem {fileName : CString}
    (h : Move.up ∉ moves separator dot fileName.chars) : StaysInside fileName := by
  unfold StaysInside
  rw [ups_relative h, List.take_zero]
  exact List.nil_suffix

/-- **Served paths.** Every path that the server opens for a request lies below `SERVER_FILE_PATH`
if and only if the path is too long for its buffer, so that none is opened, or the file name enters
every directory again that it leaves. -/
theorem handleRequest_opened_iff {env : ServerEnv} {header : Header} {payload : Ptr}
    {fileName : CString} {reply : Reply}
    (hcommand : header.command = commandRequestMetadata ∨ header.command = commandRequestFile)
    (hname : payload.toCString = some fileName)
    (hreply : handleRequest env header payload = some reply) :
    (∀ path ∈ reply.opened, IsServed path) ↔
      256 ≤ (fullPath fileName).chars.length ∨ StaysInside fileName := by
  have hopened : reply.opened =
      if 256 ≤ (fullPath fileName).chars.length then [] else [fullPath fileName] := by
    rcases hcommand with hmetadata | hfile
    · rw [handleRequest_of_metadata hmetadata, hname, Option.bind_some] at hreply
      exact opened_sendFileMetadata hreply
    · rw [handleRequest_of_file hfile, hname, Option.bind_some] at hreply
      exact opened_sendFileContents hreply
  rw [hopened, ← isServed_fullPath_iff]
  split
  · rename_i hlong
    exact iff_of_true nofun (.inl hlong)
  · rename_i hshort
    rw [or_iff_right hshort]
    exact List.forall_mem_singleton

/-- A request for `../../../../../etc/passwd`. -/
theorem handleRequest_opens_passwd :
    ∃ reply, handleRequest (.serving [65] (by decide))
        { messageType := messageRequest
          command := commandRequestFile
          payloadSize := 26
          chunkIndex := 0
          status := notSet }
        (.block (CString.ofLiteral "../../../../../etc/passwd").memory) = some reply ∧
      reply.opened = [fullPath (.ofLiteral "../../../../../etc/passwd")] ∧
      normalize separator dot (fullPath (.ofLiteral "../../../../../etc/passwd")).chars =
        [ascii "etc", ascii "passwd"] ∧
      ¬∀ path ∈ reply.opened, IsServed path := by
  refine ⟨_, rfl, ?_, ?_, ?_⟩
  · decide +kernel
  · decide +kernel
  · decide +kernel

theorem handleRequest_opened_oneByte :
    ∃ reply, handleRequest (.serving [65] (by decide))
        { messageType := messageRequest
          command := commandRequestMetadata
          payloadSize := 8
          chunkIndex := 0
          status := notSet }
        (.block (CString.ofLiteral "one.txt").memory) = some reply ∧
      ((∀ path ∈ reply.opened, IsServed path) ↔
        256 ≤ (fullPath (.ofLiteral "one.txt")).chars.length ∨
          StaysInside (.ofLiteral "one.txt")) := by
  have hcommand : (⟨messageRequest, commandRequestMetadata, 8, 0, notSet⟩ : Header).command =
      commandRequestMetadata := rfl
  have hname : (Ptr.block (CString.ofLiteral "one.txt").memory).toCString =
      some (.ofLiteral "one.txt") :=
    Ptr.toCString_memory _
  have hreply : handleRequest (.serving [65] (by decide))
      ⟨messageRequest, commandRequestMetadata, 8, 0, notSet⟩
      (.block (CString.ofLiteral "one.txt").memory) =
        some (metadataReply (.serving [65] (by decide)) (.ofLiteral "one.txt") 1) := by
    rw [handleRequest_of_metadata hcommand, hname, Option.bind_some]
    exact sendFileMetadata_of_stat (by decide) rfl
  exact ⟨_, hreply, handleRequest_opened_iff (.inl hcommand) hname hreply⟩

end CExamples.ClientServer
