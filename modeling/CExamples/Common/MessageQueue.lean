import Mathlib.Data.List.Basic

/-!
# Messages received from a byte queue

A list is cut into chunks of `n` elements (`chunk`), and messages arrive whole but are received
`n` elements at a time from the queue of what has arrived (`Delivers`). If every message but the
last has exactly `n` elements, as the chunks of a list have, the receiver gets the messages one by
one, however many of them wait in the queue together (`Delivers.eq_messages`). A receiver that gets
whole messages only (`Coalesces`) may get several at a time, and a last message that does not fit
with the one before it alone (`Coalesces.exists_last`).
-/

namespace CExamples

variable {α : Type*}

/-! ## Chunks -/

/-- The `i`-th piece of `n` elements. -/
def chunk (n : ℕ) (l : List α) (i : ℕ) : List α :=
  (l.drop (n * i)).take n

/-- The first chunks of a list are a prefix of it. -/
theorem flatMap_chunk (n : ℕ) (l : List α) (count : ℕ) :
    (List.range count).flatMap (chunk n l) = l.take (n * count) := by
  induction count with
  | zero => simp
  | succ count ih =>
    rw [List.range_succ, List.flatMap_append, ih, List.flatMap_singleton, chunk, Nat.mul_succ,
      List.take_add]

theorem length_chunk {n : ℕ} {l : List α} {i : ℕ} (h : n * (i + 1) ≤ l.length) :
    (chunk n l i).length = n := by
  rw [Nat.mul_succ] at h
  rw [chunk, List.length_take, List.length_drop]
  omega

/-! ## Coalesced delivery -/

/-- Every message but the last has `n` elements, and the last at least one and at most `n`. -/
def FullUntilLast (n : ℕ) : List (List α) → Prop
  | [] => True
  | [last] => last ≠ [] ∧ last.length ≤ n
  | message :: rest => message.length = n ∧ FullUntilLast n rest

/-- What is received of `pending` messages behind a `queue`: before each receive some messages
arrive, and it returns the first `n` elements of a queue that is not empty. -/
inductive Delivers (n : ℕ) : List (List α) → List α → List (List α) → Prop
  | done : Delivers n [] [] []
  | receive {arrived pending : List (List α)} {queue : List α} {results : List (List α)}
      (nonempty : queue ++ arrived.flatten ≠ [])
      (rest : Delivers n pending ((queue ++ arrived.flatten).drop n) results) :
      Delivers n (arrived ++ pending) queue ((queue ++ arrived.flatten).take n :: results)

namespace FullUntilLast

variable {n : ℕ} {message : List α} {messages : List (List α)}

theorem cons_of_ne_nil (hne : messages ≠ []) :
    FullUntilLast n (message :: messages) ↔ message.length = n ∧ FullUntilLast n messages := by
  cases messages with
  | nil => exact absurd rfl hne
  | cons next rest => rfl

theorem tail (h : FullUntilLast n (message :: messages)) : FullUntilLast n messages := by
  rcases eq_or_ne messages [] with rfl | hne
  · trivial
  · exact ((cons_of_ne_nil hne).mp h).2

theorem head_ne_nil (hpos : 0 < n) (h : FullUntilLast n (message :: messages)) :
    message ≠ [] := by
  rcases eq_or_ne messages [] with rfl | hne
  · exact h.1
  · rintro rfl
    exact Nat.ne_of_lt hpos ((cons_of_ne_nil hne).mp h).1

/-- The first `n` elements of the messages in a queue are the first message. -/
theorem take_flatten (h : FullUntilLast n (message :: messages)) {queued : List (List α)}
    (hqueued : queued <+: messages) :
    (message :: queued).flatten.take n = message ∧
      (message :: queued).flatten.drop n = queued.flatten := by
  rw [List.flatten_cons]
  rcases eq_or_ne messages [] with rfl | hne
  · rw [List.prefix_nil.mp hqueued, List.flatten_nil, List.append_nil]
    exact ⟨List.take_of_length_le h.2, List.drop_of_length_le h.2⟩
  · have hlen := ((cons_of_ne_nil hne).mp h).1
    exact ⟨List.take_left' hlen, List.drop_left' hlen⟩

theorem concat (hfull : ∀ m ∈ messages, m.length = n) (hne : message ≠ [])
    (hle : message.length ≤ n) : FullUntilLast n (messages ++ [message]) := by
  induction messages with
  | nil => exact ⟨hne, hle⟩
  | cons first rest ih =>
    have hrest : rest ++ [message] ≠ [] := by simp
    rw [List.cons_append, cons_of_ne_nil hrest]
    refine ⟨hfull first List.mem_cons_self, ih ?_⟩
    intro m hm
    exact hfull m (List.mem_cons_of_mem first hm)

end FullUntilLast

/-- Messages that arrive one at a time are received one at a time. -/
theorem Delivers.of_length_le {n : ℕ} {messages : List (List α)}
    (h : ∀ message ∈ messages, message ≠ [] ∧ message.length ≤ n) :
    Delivers n messages [] messages := by
  induction messages with
  | nil => exact .done
  | cons message rest ih =>
    obtain ⟨hne, hle⟩ := h message List.mem_cons_self
    have hrest : Delivers n rest [] rest := by
      apply ih
      intro m hm
      exact h m (List.mem_cons_of_mem message hm)
    have hqueue : [] ++ [message].flatten = message := by simp
    have hstep : [] ++ [message].flatten ≠ [] →
        Delivers n rest (([] ++ [message].flatten).drop n) rest →
        Delivers n ([message] ++ rest) [] (([] ++ [message].flatten).take n :: rest) := .receive
    rw [hqueue, List.take_of_length_le hle, List.drop_of_length_le hle] at hstep
    exact hstep hne hrest

/-- A queue of whole messages is received message by message, and then the pending ones are. -/
theorem Delivers.eq_append {n : ℕ} (hpos : 0 < n) {pending : List (List α)} {queue : List α}
    {results : List (List α)} (h : Delivers n pending queue results) {queued : List (List α)}
    (hqueue : queue = queued.flatten) (hfull : FullUntilLast n (queued ++ pending)) :
    results = queued ++ pending := by
  induction h generalizing queued with
  | done =>
    cases queued with
    | nil => rfl
    | cons message rest =>
      have hne := FullUntilLast.head_ne_nil hpos hfull
      rw [List.flatten_cons] at hqueue
      exact absurd (List.append_eq_nil_iff.mp hqueue.symm).1 hne
  | receive nonempty rest ih =>
    rename_i arrived pending _ results
    subst hqueue
    rw [← List.flatten_append] at nonempty ih ⊢
    rw [← List.append_assoc] at hfull ⊢
    cases hall : queued ++ arrived with
    | nil =>
      rw [hall] at nonempty
      exact absurd rfl nonempty
    | cons message others =>
      rw [hall] at hfull ih
      obtain ⟨htake, hdrop⟩ := FullUntilLast.take_flatten hfull (List.prefix_append others pending)
      rw [htake, ih hdrop hfull.tail, List.cons_append]

/-- **Coalesced delivery.** Messages that all have `n` elements except the last are received one by
one. -/
theorem Delivers.eq_messages {n : ℕ} (hpos : 0 < n) {messages results : List (List α)}
    (h : Delivers n messages [] results) (hfull : FullUntilLast n messages) : results = messages :=
  h.eq_append hpos (show [] = ([] : List (List α)).flatten from rfl) hfull

/-- Messages that wait in the queue are received one by one. -/
theorem FullUntilLast.delivers_queued {n : ℕ} (hpos : 0 < n) {messages : List (List α)}
    (hfull : FullUntilLast n messages) : Delivers n [] messages.flatten messages := by
  induction messages with
  | nil => exact .done
  | cons message rest ih =>
    obtain ⟨htake, hdrop⟩ := hfull.take_flatten List.prefix_rfl
    have hne : (message :: rest).flatten ++ ([] : List (List α)).flatten ≠ [] := by
      rw [List.flatten_cons, List.append_assoc]
      exact List.append_ne_nil_of_left_ne_nil (hfull.head_ne_nil hpos) _
    have hstep := @Delivers.receive α n [] [] (message :: rest).flatten rest hne
    rw [List.flatten_nil, List.append_nil, htake, hdrop] at hstep
    exact hstep (ih hfull.tail)

/-- Messages that have all arrived before the first receive are received one by one. -/
theorem FullUntilLast.delivers_arrived {n : ℕ} (hpos : 0 < n) {messages : List (List α)}
    (hfull : FullUntilLast n messages) : Delivers n messages [] messages := by
  cases messages with
  | nil => exact .done
  | cons message rest =>
    obtain ⟨htake, hdrop⟩ := hfull.take_flatten List.prefix_rfl
    have hne : [] ++ (message :: rest).flatten ≠ [] := by
      rw [List.nil_append, List.flatten_cons]
      exact List.append_ne_nil_of_left_ne_nil (hfull.head_ne_nil hpos) _
    have hstep := @Delivers.receive α n (message :: rest) [] [] rest hne
    rw [List.nil_append, htake, hdrop, List.append_nil] at hstep
    exact hstep (hfull.tail.delivers_queued hpos)

/-! ## Whole messages -/

/-- Every receive returns one or more whole messages, in their order. -/
def Coalesces (messages results : List (List α)) : Prop :=
  ∃ groups : List (List (List α)), (∀ group ∈ groups, group ≠ []) ∧ groups.flatten = messages ∧
    results = groups.map List.flatten

theorem coalesces_self (messages : List (List α)) : Coalesces messages messages := by
  refine ⟨messages.map fun message => [message], ?_, ?_, ?_⟩
  · intro group hgroup
    obtain ⟨message, -, rfl⟩ := List.mem_map.mp hgroup
    exact List.cons_ne_nil message []
  · rw [← List.flatMap_def, List.flatMap_singleton']
  · simp [Function.comp_def]

/-- Messages can be received one by one, and the last two together. -/
theorem coalesces_concat (messages : List (List α)) (message last : List α) :
    Coalesces (messages ++ [message, last]) (messages ++ [message ++ last]) := by
  obtain ⟨groups, hne, hflatten, hmap⟩ := coalesces_self messages
  refine ⟨groups ++ [[message, last]], ?_, ?_, ?_⟩
  · intro group hgroup
    rcases List.mem_append.mp hgroup with hgroup | hgroup
    · exact hne group hgroup
    · rw [List.mem_singleton.mp hgroup]
      exact List.cons_ne_nil message [last]
  · rw [List.flatten_append, hflatten, List.flatten_singleton]
  · rw [List.map_append, ← hmap]
    simp

/-- The last message is the last of its group. -/
theorem exists_last_group {groups : List (List (List α))} (hne : ∀ group ∈ groups, group ≠ [])
    {front : List (List α)} {last : List α} (h : groups.flatten = front ++ [last]) :
    ∃ earlier before, groups = earlier ++ [before ++ [last]] ∧
      earlier.flatten ++ before = front := by
  rcases List.eq_nil_or_concat groups with rfl | ⟨earlier, group, rfl⟩
  · simp at h
  rcases List.eq_nil_or_concat group with rfl | ⟨before, message, rfl⟩
  · exact absurd rfl (hne [] (by simp))
  rw [List.concat_eq_append, List.flatten_append, List.flatten_singleton, List.concat_eq_append,
    ← List.append_assoc] at h
  obtain ⟨hfront, hlast⟩ := List.append_inj' h rfl
  cases hlast
  refine ⟨earlier, before, ?_, hfront⟩
  rw [List.concat_eq_append, List.concat_eq_append]

/-- A last message that does not fit with the one before it is received alone. -/
theorem Coalesces.exists_last {n : ℕ} {messages results : List (List α)} {last : List α}
    (h : Coalesces (messages ++ [last]) results) (hle : ∀ result ∈ results, result.length ≤ n)
    (halone : ∀ message ∈ messages.getLast?, n < message.length + last.length) :
    ∃ earlier, results = earlier ++ [last] ∧ Coalesces messages earlier := by
  obtain ⟨groups, hne, hflatten, rfl⟩ := h
  obtain ⟨earlier, before, rfl, hfront⟩ := exists_last_group hne hflatten
  rw [List.map_append, List.map_singleton] at hle ⊢
  obtain rfl : before = [] := by
    rcases List.eq_nil_or_concat before with hnil | ⟨others, message, rfl⟩
    · exact hnil
    -- The message before it would be in the same result.
    have hlen := hle _ (List.mem_append_right _ (List.mem_singleton_self _))
    have hmessage := halone message (by rw [← hfront]; simp)
    simp only [List.concat_eq_append, List.flatten_append, List.flatten_singleton,
      List.length_append] at hlen
    omega
  rw [List.append_nil] at hfront
  refine ⟨earlier.map List.flatten, by simp, earlier, ?_, hfront, rfl⟩
  intro group hgroup
  exact hne group (List.mem_append_left _ hgroup)

end CExamples
