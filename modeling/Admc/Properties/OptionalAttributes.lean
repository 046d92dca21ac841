import Admc.Lib.Chunks
import Admc.Properties.AttributesTab

/-!
# The chunks of optional attributes

The values of the optional attributes are read in five chunks or a few more. The length of a
chunk is the number of the attributes divided by five, and that of the last one is what is left.

* `chunkLoop_eq_some`: the chunks are the parts of that length of the list;
* `loadChunks_eq`: they are what the loop over the values asks for;
* `visitsOnce_iff`: each attribute is in one chunk, and no chunk is empty, exactly if there are
  at least five attributes, or none. Otherwise the loop does not end.
-/

namespace Admc

/-- The length of the next chunk: less than before if not so many attributes are left. -/
def nextChunkLength (attrs : List String) (start chunkLength : ℕ) : ℕ :=
  if attrs.length - start < chunkLength then attrs.length - start else chunkLength

/-- The loop of `load_optional_attribute_values`: the chunks that are asked for, in some number
    of turns. -/
def chunkLoop (attrs : List String) : ℕ → ℕ → ℕ → Option (List (List String))
  | 0, start, _ => if start < attrs.length then none else some []
  | turns + 1, start, chunkLength =>
    if start < attrs.length then
      let chunkLength := nextChunkLength attrs start chunkLength
      let attrListChunk := (attrs.drop start).take chunkLength
      (chunkLoop attrs turns (start + chunkLength) chunkLength).map (attrListChunk :: ·)
    else some []

/-- The chunks of `load_optional_attribute_values`, if it needs no more turns than these. -/
def requestedChunks (turns : ℕ) (notSpecified : List String) : Option (List (List String)) :=
  let attrListChunksNumber := 5
  chunkLoop notSpecified turns 0 (notSpecified.length / attrListChunksNumber)

/-- The loop ends, asks for each attribute once, in order, and never for no attribute, which
    would be for all of them. -/
def VisitsOnce (notSpecified : List String) : Prop :=
  ∃ turns chunks, requestedChunks turns notSpecified = some chunks ∧
    chunks.flatten = notSpecified ∧ ∀ chunk ∈ chunks, chunk ≠ []

section
variable {attrs : List String} {turns start chunkLength : ℕ}

theorem chunkLoop_of_le (h : attrs.length ≤ start) :
    chunkLoop attrs turns start chunkLength = some [] := by
  cases turns <;> rw [chunkLoop, if_neg (Nat.not_lt.2 h)]

theorem chunkLoop_succ (h : start < attrs.length) :
    chunkLoop attrs (turns + 1) start chunkLength =
      (chunkLoop attrs turns (start + nextChunkLength attrs start chunkLength)
        (nextChunkLength attrs start chunkLength)).map
        ((attrs.drop start).take (nextChunkLength attrs start chunkLength) :: ·) := by
  rw [chunkLoop, if_pos h]

/-- As long as the chunks are not empty, they are the parts of their length of the list. -/
theorem chunkLoop_eq_some (hlength : 0 < chunkLength) (hturns : attrs.length ≤ start + turns) :
    chunkLoop attrs turns start chunkLength = some (chunks chunkLength (attrs.drop start)) := by
  induction turns generalizing start with
  | zero =>
    rw [Nat.add_zero] at hturns
    rw [chunkLoop_of_le hturns, List.drop_eq_nil_of_le hturns, chunks_nil hlength]
  | succ turns ih =>
    by_cases hstart : start < attrs.length
    · have hne : attrs.drop start ≠ [] := by
        simpa using hstart
      rw [chunkLoop_succ hstart, chunks_of_ne_nil hlength hne, List.drop_drop, nextChunkLength]
      split_ifs with hlast
      · -- the last chunk is what is left
        rw [chunkLoop_of_le (by omega), List.drop_eq_nil_of_le (by omega : _ ≤ start + chunkLength),
          chunks_nil hlength, List.take_of_length_le (by rw [List.length_drop]),
          List.take_of_length_le (by rw [List.length_drop]; omega)]
        rfl
      · rw [ih (by omega)]
        rfl
    · rw [Nat.not_lt] at hstart
      rw [chunkLoop_of_le hstart, List.drop_eq_nil_of_le hstart, chunks_nil hlength]

/-- Empty chunks do not come to an end. -/
theorem chunkLoop_zero (h : start < attrs.length) : chunkLoop attrs turns start 0 = none := by
  induction turns with
  | zero => rw [chunkLoop, if_pos h]
  | succ turns ih =>
    -- the loop stays where it is
    have hnext : nextChunkLength attrs start 0 = 0 := if_neg (Nat.not_lt_zero _)
    rw [chunkLoop_succ h, hnext, Nat.add_zero, ih]
    rfl

/-- The values of a chunk are read. -/
def readChunk (searchObject : List String → AdObject) (original : AttributeValues)
    (attrListChunk : List String) : AttributeValues :=
  attrListChunk.foldl (fun original attr =>
    original.insert attr ((searchObject attrListChunk).getValues attr)) original

theorem loadChunks_nil (searchObject : List String → AdObject) (original : AttributeValues) :
    loadChunks searchObject chunkLength turns [] original = some original := by
  cases turns <;> rfl

theorem loadChunks_succ (searchObject : List String → AdObject) (original : AttributeValues)
    (hattrs : attrs ≠ []) :
    loadChunks searchObject chunkLength (turns + 1) attrs original =
      loadChunks searchObject chunkLength turns (attrs.drop chunkLength)
        (readChunk searchObject original (attrs.take chunkLength)) := by
  cases attrs with
  | nil => exact absurd rfl hattrs
  | cons attr rest => rfl

/-- What the loop over the values asks for are these chunks. -/
theorem loadChunks_eq (searchObject : List String → AdObject) (original : AttributeValues) :
    loadChunks searchObject chunkLength turns (attrs.drop start) original =
      (chunkLoop attrs turns start chunkLength).map fun parts =>
        parts.foldl (readChunk searchObject) original := by
  induction turns generalizing start original with
  | zero =>
    rw [chunkLoop]
    split_ifs with hstart
    · rw [List.drop_eq_getElem_cons hstart]
      rfl
    · rw [List.drop_eq_nil_of_le (Nat.not_lt.1 hstart), loadChunks_nil]
      rfl
  | succ turns ih =>
    by_cases hstart : start < attrs.length
    · have hne : attrs.drop start ≠ [] := by
        simpa using hstart
      rw [loadChunks_succ _ _ hne, chunkLoop_succ hstart, List.drop_drop, nextChunkLength]
      split_ifs with hlast
      · -- nothing is left after the last chunk
        rw [List.drop_eq_nil_of_le (by omega : _ ≤ start + chunkLength), loadChunks_nil,
          chunkLoop_of_le (by omega), List.take_of_length_le (by rw [List.length_drop]; omega),
          List.take_of_length_le (by rw [List.length_drop])]
        rfl
      · rw [ih, Option.map_map]
        rfl
    · rw [Nat.not_lt] at hstart
      rw [chunkLoop_of_le hstart, List.drop_eq_nil_of_le hstart, loadChunks_nil]
      rfl

/-- Each attribute is asked for once, and the loop ends, exactly if there are at least five
    attributes, or none. -/
theorem visitsOnce_iff (attrs : List String) :
    VisitsOnce attrs ↔ attrs = [] ∨ 5 ≤ attrs.length := by
  constructor
  · rintro ⟨turns, parts, hparts, -, -⟩
    by_contra hfew
    rw [not_or] at hfew
    have hlength : attrs.length / 5 = 0 := Nat.div_eq_of_lt (by omega)
    -- the first chunk would be empty already
    rw [requestedChunks, hlength, chunkLoop_zero (List.length_pos_iff.2 hfew.1)] at hparts
    exact nomatch hparts
  · rintro (rfl | hmany)
    · exact ⟨0, [], rfl, rfl, nofun⟩
    · have hlength : 0 < attrs.length / 5 := Nat.div_pos hmany (by decide)
      -- as many turns as attributes are enough
      refine ⟨attrs.length, chunks (attrs.length / 5) attrs, ?_, ?_, ?_⟩
      · exact chunkLoop_eq_some hlength (Nat.zero_add _).ge
      · exact flatten_chunks hlength attrs
      · exact fun chunk => ne_nil_of_mem_chunks hlength

end

/-- One attribute is asked for in no chunk: the loop does not end. -/
theorem not_visitsOnce : ¬∀ attrs, VisitsOnce attrs := by
  intro hall
  have hfew := (visitsOnce_iff ["info"]).1 (hall _)
  exact absurd hfew (by decide)

end Admc
