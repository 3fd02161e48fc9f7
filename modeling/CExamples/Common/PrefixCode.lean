import Mathlib.Data.List.Basic

/-!
# Self-delimiting codes

A `PrefixCode` writes each value as a word that a reader can tell apart from what follows it:
reading a word with any continuation gives back the value and that continuation, and nothing but a
word is ever read. No word is then a proper prefix of another, no proper prefix of a word can be
read, and a stream of words that may break off in the last one can be read in one way only
(`eq_of_flatten_append_eq`).
-/

namespace CExamples

/-- A code over the alphabet `β` whose words say where they end. -/
structure PrefixCode (α β : Type*) where
  encode : α → List β
  decode : List β → Option (α × List β)
  decode_encode_append : ∀ a rest, decode (encode a ++ rest) = some (a, rest)
  eq_append_of_decode : ∀ {word a rest}, decode word = some (a, rest) → word = encode a ++ rest

namespace PrefixCode

variable {α β : Type*} (code : PrefixCode α β)

theorem decode_eq_some_iff {word : List β} {a : α} {rest : List β} :
    code.decode word = some (a, rest) ↔ word = code.encode a ++ rest := by
  constructor
  · exact code.eq_append_of_decode
  · rintro rfl
    exact code.decode_encode_append a rest

/-- Two words that begin the same list are the same word. -/
theorem eq_of_append_eq {a b : α} {rest rest' : List β}
    (h : code.encode a ++ rest = code.encode b ++ rest') : a = b ∧ rest = rest' := by
  have ha := code.decode_encode_append a rest
  rw [h, code.decode_encode_append b rest'] at ha
  cases ha
  exact ⟨rfl, rfl⟩

/-- A proper prefix of a word cannot be read. -/
theorem decode_eq_none_of_prefix {a : α} {part rest : List β} (h : code.encode a = part ++ rest)
    (hrest : rest ≠ []) : code.decode part = none := by
  rw [Option.eq_none_iff_forall_ne_some]
  rintro ⟨b, left⟩ hb
  rw [code.decode_eq_some_iff] at hb
  have heq : code.encode a ++ [] = code.encode b ++ (left ++ rest) := by
    rw [List.append_nil, h, hb, List.append_assoc]
  obtain ⟨-, hnil⟩ := code.eq_of_append_eq heq
  exact hrest (List.append_eq_nil_iff.mp hnil.symm).2

/-! ## Streams of words -/

/-- The beginning of a word that breaks off. -/
def IsPart (part : List β) : Prop :=
  ∃ a rest, code.encode a = part ++ rest ∧ rest ≠ []

variable {code} in
theorem IsPart.decode_eq_none {part : List β} (h : code.IsPart part) : code.decode part = none := by
  obtain ⟨a, rest, hword, hrest⟩ := h
  exact code.decode_eq_none_of_prefix hword hrest

variable {code} in
theorem IsPart.ne_encode {part : List β} (h : code.IsPart part) (a : α) :
    part ≠ code.encode a := by
  rintro rfl
  have hdecode := code.decode_encode_append a []
  rw [List.append_nil, h.decode_eq_none] at hdecode
  cases hdecode

theorem eq_of_flatten_append_eq {values values' : List α} {part part' : List β}
    (hpart : code.decode part = none) (hpart' : code.decode part' = none)
    (h : (values.map code.encode).flatten ++ part = (values'.map code.encode).flatten ++ part') :
    values = values' ∧ part = part' := by
  induction values generalizing values' with
  | nil =>
    cases values' with
    | nil => exact ⟨rfl, h⟩
    | cons a values' =>
      have hword : part = code.encode a ++ ((values'.map code.encode).flatten ++ part') := by
        simpa using h
      rw [hword, code.decode_encode_append] at hpart
      cases hpart
  | cons a values ih =>
    cases values' with
    | nil =>
      have hword : part' = code.encode a ++ ((values.map code.encode).flatten ++ part) := by
        simpa using h.symm
      rw [hword, code.decode_encode_append] at hpart'
      cases hpart'
    | cons b values' =>
      simp only [List.map_cons, List.flatten_cons, List.append_assoc] at h
      obtain ⟨rfl, hrest⟩ := code.eq_of_append_eq h
      obtain ⟨rfl, rfl⟩ := ih hrest
      exact ⟨rfl, rfl⟩

/-- Pieces written one after another: whole words, behind which one may break off. -/
def Framed (pieces : List (List β)) : Prop :=
  ∃ values : List α, pieces = values.map code.encode ∨
    ∃ part, code.IsPart part ∧ pieces = values.map code.encode ++ [part]

theorem framed_map (values : List α) : code.Framed (values.map code.encode) :=
  ⟨values, .inl rfl⟩

theorem framed_concat (values : List α) {piece : List β}
    (h : (∃ a, piece = code.encode a) ∨ code.IsPart piece) :
    code.Framed (values.map code.encode ++ [piece]) := by
  rcases h with ⟨a, rfl⟩ | hpart
  · refine ⟨values ++ [a], .inl ?_⟩
    rw [List.map_append]
    rfl
  · exact ⟨values, .inr ⟨piece, hpart, rfl⟩⟩

/-- Nothing is written behind a word that breaks off. -/
theorem not_framed_of_isPart {part : List β} (hpart : code.IsPart part) (before : List (List β))
    (next : List β) : ¬code.Framed (before ++ [part, next]) := by
  rintro ⟨values, h | ⟨last, -, h⟩⟩
  · have hmem : part ∈ values.map code.encode := by
      rw [← h]
      simp
    obtain ⟨a, -, rfl⟩ := List.mem_map.mp hmem
    exact hpart.ne_encode a rfl
  · have hsplit : before ++ [part] ++ [next] = values.map code.encode ++ [last] := by
      rw [← h]
      simp
    have hmem : part ∈ values.map code.encode := by
      rw [← List.append_inj_left' hsplit rfl]
      simp
    obtain ⟨a, -, rfl⟩ := List.mem_map.mp hmem
    exact hpart.ne_encode a rfl

end PrefixCode

end CExamples
