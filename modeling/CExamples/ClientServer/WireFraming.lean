import CExamples.ClientServer.ServerRuns

/-!
# What the transport accepts of a reply

A call of `send` may accept a part of its message. If that happens to a chunk, the error reply goes
out behind the part, where the client takes it for payload; everywhere else the bytes accepted are
whole messages, and then at most a part of one (`framed_iff`).
-/

namespace CExamples.ClientServer

open C

/-- The bytes that a call of `send` accepts. -/
def Event.accepted : Event → Option (List UInt8)
  | .stat _ => none
  | .fopen _ => none
  | .createMessage _ _ => none
  | .send data bytesSent => some (data.take bytesSent.toNat)

/-- The bytes that the calls of `send` accept, call by call, without those that accept none. -/
def pieces (events : List Event) : List (List UInt8) :=
  (events.filterMap Event.accepted).filter (· ≠ [])

/-- The bytes accepted are whole messages, and then at most a part of one. -/
def Reply.Framed (reply : Reply) : Prop :=
  Frame.code.Framed (pieces reply.events)

/-- The stream that the receiver sees. -/
def Reply.wire (reply : Reply) : List UInt8 :=
  (pieces reply.events).flatten

theorem pieces_append (first second : List Event) :
    pieces (first ++ second) = pieces first ++ pieces second := by
  unfold pieces
  rw [List.filterMap_append, List.filter_append]

theorem pieces_createMessage_append (header : Header) (payload : Ptr) (events : List Event) :
    pieces ([.createMessage header payload] ++ events) = pieces events :=
  rfl

theorem pieces_createMessage_send_append (header : Header) (payload : Ptr) (data : List UInt8)
    (bytesSent : ℤ) (events : List Event) :
    pieces ([.createMessage header payload, .send data bytesSent] ++ events) =
      pieces [.send data bytesSent] ++ pieces events := by
  rw [pieces_append]
  rfl

/-! ## One message -/

/-- A message is accepted not at all, whole or in part. -/
theorem pieces_send (frame : Frame) {bytesSent : ℤ} (hle : bytesSent ≤ frame.encode.length) :
    (bytesSent ≤ 0 ∧ pieces [.send frame.encode bytesSent] = []) ∨
    (bytesSent = frame.encode.length ∧ pieces [.send frame.encode bytesSent] = [frame.encode]) ∨
    0 < bytesSent ∧ bytesSent < frame.encode.length ∧
      ∃ part, Frame.code.IsPart part ∧ pieces [.send frame.encode bytesSent] = [part] := by
  have hpieces : pieces [.send frame.encode bytesSent] =
      [frame.encode.take bytesSent.toNat].filter (· ≠ []) := rfl
  have hpos : 0 < frame.encode.length := by
    rw [Frame.length_encode, headerSize]
    omega
  rw [hpieces]
  rcases le_or_gt bytesSent 0 with hzero | hsent
  · left
    rw [Int.toNat_eq_zero.mpr hzero, List.take_zero]
    exact ⟨hzero, rfl⟩
  right
  have hne : frame.encode.take bytesSent.toNat ≠ [] := by
    rw [← List.length_pos_iff, List.length_take]
    omega
  have hkeep : [frame.encode.take bytesSent.toNat].filter (· ≠ []) =
      [frame.encode.take bytesSent.toNat] := by
    simp [hne]
  rw [hkeep]
  rcases hle.eq_or_lt with hwhole | hcut
  · left
    rw [hwhole, Int.toNat_natCast, List.take_length]
    exact ⟨rfl, rfl⟩
  · right
    have hlt : bytesSent.toNat < frame.encode.length := by omega
    refine ⟨hsent, hcut, _, ⟨frame, _, (List.take_append_drop bytesSent.toNat _).symm, ?_⟩, rfl⟩
    rw [← List.length_pos_iff, List.length_drop]
    exact Nat.sub_pos_of_lt hlt

/-- An error reply is one piece, if it is built and some of it is accepted. -/
theorem pieces_errorReply (env : ServerEnv) (sent : ℕ) (command errorCode : UInt8)
    {errorMessage : CString} (h : errorMessage.chars.length < maxPayloadSize) :
    (¬(env.errorMalloc ≠ none ∧ 0 < env.send sent (errorBytes command errorCode errorMessage)) ∧
      pieces (errorReply env sent command errorCode errorMessage).events = []) ∨
    (env.errorMalloc ≠ none ∧ 0 < env.send sent (errorBytes command errorCode errorMessage)) ∧
      ∃ piece, ((∃ frame, piece = Frame.code.encode frame) ∨ Frame.code.IsPart piece) ∧
        pieces (errorReply env sent command errorCode errorMessage).events = [piece] := by
  unfold errorReply
  cases hmalloc : env.errorMalloc with
  | none => exact .inl ⟨fun h => h.1 rfl, rfl⟩
  | some junk =>
    have hencode : errorBytes command errorCode errorMessage =
        (errorFrame command errorCode errorMessage h).encode := rfl
    have hpieces : ∀ k : ℤ, pieces [.createMessage (errorHeader command errorCode errorMessage)
        (.block errorMessage.memory), .send (errorBytes command errorCode errorMessage) k] =
          pieces [.send (errorFrame command errorCode errorMessage h).encode k] := fun _ => rfl
    dsimp only
    rw [hpieces, hencode]
    rcases pieces_send (errorFrame command errorCode errorMessage h)
      (env.send_le sent (errorFrame command errorCode errorMessage h).encode) with
      ⟨hzero, hnone⟩ | ⟨hwhole, hpiece⟩ | ⟨hpos, -, part, hpart, hpiece⟩
    · exact .inl ⟨fun h => hzero.not_gt h.2, hnone⟩
    · refine .inr ⟨⟨Option.some_ne_none junk, ?_⟩, _, .inl ⟨_, rfl⟩, hpiece⟩
      rw [hwhole, Frame.length_encode, headerSize]
      omega
    · exact .inr ⟨⟨Option.some_ne_none junk, hpos⟩, part, .inr hpart, hpiece⟩

/-- An error reply leaves a stream of whole messages framed. -/
theorem framed_append_errorReply (values : List Frame) (env : ServerEnv) (sent : ℕ)
    (command errorCode : UInt8) {errorMessage : CString}
    (h : errorMessage.chars.length < maxPayloadSize) :
    Frame.code.Framed (values.map Frame.code.encode ++
      pieces (errorReply env sent command errorCode errorMessage).events) := by
  rcases pieces_errorReply env sent command errorCode h with ⟨-, hnone⟩ | ⟨-, piece, hpiece, hsome⟩
  · rw [hnone, List.append_nil]
    exact Frame.code.framed_map values
  · rw [hsome]
    exact Frame.code.framed_concat values hpiece

theorem pieces_chunkEvents (env : ServerEnv) (totalChunks : UInt32) (indices : List ℕ) :
    pieces (indices.flatMap (chunkEvents env totalChunks)) =
      (indices.map (chunkFrame env totalChunks)).map Frame.code.encode := by
  induction indices with
  | nil => rfl
  | cons i indices ih =>
    have hchunk : pieces (chunkEvents env totalChunks i) =
        [(chunkFrame env totalChunks i).encode] := by
      rcases pieces_send (chunkFrame env totalChunks i) le_rfl with
        ⟨hzero, -⟩ | ⟨-, hpiece⟩ | ⟨-, hlt, -⟩
      · rw [Frame.length_encode, headerSize] at hzero
        omega
      · exact hpiece
      · exact absurd hlt (lt_irrefl _)
    rw [List.flatMap_cons, pieces_append, ih, hchunk]
    rfl

/-! ## The reply -/

/-- The chunk is built and accepted in part, and so is at least a part of the error reply behind
it. -/
def CutShort (env : ServerEnv) (totalChunks : UInt32) (chunkIndex : ℕ) : Prop :=
  env.chunkMalloc chunkIndex ≠ none ∧
    0 < env.send chunkIndex (chunkFrame env totalChunks chunkIndex).encode ∧
    env.send chunkIndex (chunkFrame env totalChunks chunkIndex).encode <
      (chunkFrame env totalChunks chunkIndex).encode.length ∧
    env.errorMalloc ≠ none ∧
    0 < env.send (chunkIndex + 1)
      (errorBytes commandRequestFile (UInt8.ofNat errorSendFailed)
        (chunkSendError chunkIndex
          (env.send chunkIndex (chunkFrame env totalChunks chunkIndex).encode)))

/-- The pieces of a loop that ends behind `n` chunks, and whether a chunk was cut short. -/
theorem LoopEnd.framed_pieces_iff {env : ServerEnv} {totalChunks : UInt32} {n : ℕ} {tail : Reply}
    (h : LoopEnd env totalChunks n tail) (values : List Frame) :
    Frame.code.Framed (values.map Frame.code.encode ++ pieces tail.events) ↔
      ¬(n < totalChunks.toNat ∧ CutShort env totalChunks n) := by
  cases h with
  | finished hn =>
    rw [show pieces ({ rvalue := statusOk, events := [] } : Reply).events = [] from rfl,
      List.append_nil]
    exact iff_of_true (Frame.code.framed_map values) fun h => h.1.ne hn
  | notCreated hlt hmalloc =>
    apply iff_of_true
    · rw [Reply.events_after, pieces_createMessage_append]
      exact framed_append_errorReply values _ _ _ _ (length_chunkMessageError_lt n _)
    · rintro ⟨-, hcreated, -⟩
      exact hcreated hmalloc
  | notSent hlt hmalloc hsend =>
    have htext := length_chunkSendError_lt n (env.send n (chunkFrame env totalChunks n).encode)
    rw [Reply.events_after, pieces_createMessage_send_append]
    rcases pieces_send (chunkFrame env totalChunks n) (env.send_le n _) with
      ⟨hzero, hchunk⟩ | ⟨hwhole, -⟩ | ⟨hpos, hcut, part, hpart, hchunk⟩
    · -- Nothing of the chunk is accepted.
      apply iff_of_true
      · rw [hchunk, List.nil_append]
        exact framed_append_errorReply values _ _ _ _ htext
      · rintro ⟨-, -, hpos, -⟩
        exact hzero.not_gt hpos
    · exact absurd hwhole hsend
    · -- A part of it is accepted: anything behind that breaks the framing.
      rw [hchunk]
      rcases pieces_errorReply env (n + 1) commandRequestFile (UInt8.ofNat errorSendFailed) htext
        with ⟨hanswer, hnone⟩ | ⟨hanswer, piece, -, hsome⟩
      · rw [hnone, List.append_nil]
        apply iff_of_true (Frame.code.framed_concat values (.inr hpart))
        rintro ⟨-, -, -, -, hanswered⟩
        exact hanswer hanswered
      · rw [hsome]
        apply iff_of_false (Frame.code.not_framed_of_isPart hpart _ piece)
        exact not_not.mpr ⟨hlt, hmalloc, hpos, hcut, hanswer⟩

theorem pieces_cons_fopen (path : CString) (events : List Event) :
    pieces (.fopen path :: events) = pieces events :=
  rfl

/-- A receiver that splits the stream by the headers finds what was sent, message by message. -/
theorem Reply.Framed.split {reply : Reply} (h : reply.Framed) {frames : List Frame}
    {part : List UInt8} (hpart : Frame.code.decode part = none)
    (hwire : reply.wire = (frames.map Frame.code.encode).flatten ++ part) :
    pieces reply.events = frames.map Frame.code.encode ++ [part].filter (· ≠ []) := by
  unfold Reply.wire at hwire
  obtain ⟨values, hpieces | ⟨last, hlast, hpieces⟩⟩ := h
  · rw [hpieces, ← List.append_nil (values.map _).flatten] at hwire
    obtain ⟨rfl, rfl⟩ := Frame.code.eq_of_flatten_append_eq rfl hpart hwire
    simp [hpieces]
  · have hne : last ≠ [] := by
      have hmem : last ∈ pieces reply.events := by
        rw [hpieces]
        simp
      unfold pieces at hmem
      simpa using (List.mem_filter.mp hmem).2
    rw [hpieces, List.flatten_concat] at hwire
    obtain ⟨rfl, rfl⟩ := Frame.code.eq_of_flatten_append_eq hlast.decode_eq_none hpart hwire
    simp [hpieces, hne]

/-- **Framing.** What the transport accepts of a reply to a file request is framed, so that a
receiver that splits it by the headers finds the messages that were sent, unless the loop gets to a
chunk that is cut short. -/
theorem framed_iff {env : ServerEnv} {fileName : CString} {reply : Reply}
    (hreply : sendFileContents env fileName = some reply) :
    (reply.Framed ↔
      ¬((fullPath fileName).chars.length < 256 ∧ env.fopen (fullPath fileName) = true ∧
        ∃ chunks, calculateTotalChunks env.ftell = some chunks ∧
          ∃ i < (UInt32.ofInt chunks).toNat,
            (∀ j < i, ChunkSent env (UInt32.ofInt chunks) j) ∧
              CutShort env (UInt32.ofInt chunks) i)) ∧
    (reply.Framed → ∀ (frames : List Frame) (part : List UInt8), Frame.code.decode part = none →
      reply.wire = (frames.map Frame.code.encode).flatten ++ part →
      pieces reply.events = frames.map Frame.code.encode ++ [part].filter (· ≠ [])) := by
  refine ⟨?_, fun h _ _ => h.split⟩
  unfold Reply.Framed
  cases contentsOutcome hreply with
  | pathTooLong hlong =>
    apply iff_of_true
    · exact framed_append_errorReply [] env 0 _ _ (length_fullPathError_lt _)
    · rintro ⟨hshort, -⟩
      exact hshort.not_ge hlong
  | notOpened hshort hopen =>
    apply iff_of_true
    · exact framed_append_errorReply [] env 0 _ _ (length_openError_lt _)
    · rintro ⟨-, hopened, -⟩
      rw [hopen] at hopened
      cases hopened
  | @opened hshort hopen chunks hchunks n tail hsent htail =>
    have hpieces : pieces ((tail.after ((List.range n).flatMap
        (chunkEvents env (UInt32.ofInt chunks)))).after [.fopen (fullPath fileName)]).events =
          ((List.range n).map (chunkFrame env (UInt32.ofInt chunks))).map Frame.code.encode ++
            pieces tail.events := by
      rw [Reply.events_after, Reply.events_after, List.singleton_append, pieces_cons_fopen,
        pieces_append, pieces_chunkEvents]
    rw [hpieces, htail.framed_pieces_iff, hchunks]
    apply not_congr
    constructor
    · rintro ⟨hlt, hcut⟩
      exact ⟨hshort, hopen, chunks, rfl, n, hlt, hsent, hcut⟩
    · rintro ⟨-, -, _, ⟨⟩, i, hi, hearlier, hcut⟩
      -- A chunk that is cut short is not sent, so it is the one at which the loop ended.
      have hnot : ¬ChunkSent env (UInt32.ofInt chunks) i := fun h => hcut.2.2.1.ne h.2
      obtain rfl := htail.eq_of_not_chunkSent hsent hi hearlier hnot
      exact ⟨hi, hcut⟩

/-- A connection that accepts only the header of the first message. -/
def headerOnly : ServerEnv :=
  { ServerEnv.oneByte with
    send := fun n data => if n = 0 then min data.length headerSize else data.length
    send_le := by
      intro n data
      split <;> omega }

/-- The pieces of a reply whose chunk is cut behind its header. -/
def headerOnlyPieces : List (List UInt8) :=
  [[4, 1, 0, 0, 0, 1, 0, 0, 0, 0, 0],
    [2, 1, 0, 0, 0, 38, 0, 0, 0, 0, 6] ++ ascii "Error sending chunk 0, bytes_sent: 11" ++ [0]]

/-- The stream of a chunk that is cut behind its header, and of the error reply behind it, is no
sequence of messages, with or without a part of one at the end. -/
theorem headerOnly_not_framed :
    (sendFileContents headerOnly (.ofLiteral "one.txt")).map (fun reply => pieces reply.events) =
      some headerOnlyPieces ∧
    ¬Frame.code.Framed headerOnlyPieces ∧
    ¬∃ (frames : List Frame) (part : List UInt8), (part = [] ∨ Frame.code.IsPart part) ∧
      headerOnlyPieces.flatten = (frames.map Frame.code.encode).flatten ++ part := by
  refine ⟨by decide +kernel, ?_, ?_⟩
  · have hpart : Frame.code.IsPart [4, 1, 0, 0, 0, 1, 0, 0, 0, 0, 0] :=
      ⟨⟨⟨4, 1, 1, 0, 0⟩, [65], rfl, by decide⟩, [65], by decide +kernel, List.cons_ne_nil _ _⟩
    exact Frame.code.not_framed_of_isPart hpart [] _
  · rintro ⟨frames, part, hpart, hwire⟩
    -- The receiver takes the first byte of the error reply for the payload of the chunk.
    have hsplit : headerOnlyPieces.flatten =
        ([⟨⟨4, 1, 1, 0, 0⟩, [2], rfl, by decide⟩].map Frame.code.encode).flatten ++
          ([1, 0, 0, 0, 38, 0, 0, 0, 0, 6] ++ ascii "Error sending chunk 0, bytes_sent: 11" ++
            [0]) := by
      decide +kernel
    have hrest : Frame.code.decode ([1, 0, 0, 0, 38, 0, 0, 0, 0, 6] ++
        ascii "Error sending chunk 0, bytes_sent: 11" ++ [0]) = none := by
      decide +kernel
    have hnone : Frame.code.decode part = none := by
      rcases hpart with rfl | hpart
      · rfl
      · exact hpart.decode_eq_none
    obtain ⟨-, rfl⟩ := Frame.code.eq_of_flatten_append_eq hrest hnone (hsplit.symm.trans hwire)
    rcases hpart with hnil | ⟨frame, more, hword, -⟩
    · cases hnil
    · have hdecode := decodeHeader_encodeHeader_append frame.header frame.payload
      have hheader : decodeHeader (encodeHeader frame.header ++ frame.payload) = _ :=
        congrArg decodeHeader hword
      rw [hdecode] at hheader
      have hsize : frame.header.payloadSize = 9728 := by
        have hfirst := congrArg (Option.map fun p => p.1.payloadSize) hheader
        exact Option.some.inj hfirst
      have hle := frame.payload_le
      rw [frame.length_payload, hsize] at hle
      exact absurd hle (by decide)

theorem framed_iff_oneByte :
    ∃ reply, sendFileContents (.serving [65] (by decide)) (.ofLiteral "one.txt") = some reply ∧
      (reply.Framed ↔
        ¬((fullPath (.ofLiteral "one.txt")).chars.length < 256 ∧ true = true ∧
          ∃ chunks, calculateTotalChunks 1 = some chunks ∧
            ∃ i < (UInt32.ofInt chunks).toNat,
              (∀ j < i, ChunkSent (.serving [65] (by decide)) (UInt32.ofInt chunks) j) ∧
                CutShort (.serving [65] (by decide)) (UInt32.ofInt chunks) i)) := by
  have hsome : (sendFileContents (.serving [65] (by decide)) (.ofLiteral "one.txt")).isSome := by
    decide +kernel
  obtain ⟨reply, hreply⟩ := Option.isSome_iff_exists.mp hsome
  exact ⟨reply, hreply, (framed_iff hreply).1⟩

end CExamples.ClientServer
