import Mathlib.Data.List.Basic
import Mathlib.Tactic.Common

/-!
# Patterns

Regular expressions in the syntax of Perl: character classes, the anchor at the start, one pattern
after another, alternatives, and repetitions with bounds. A pattern is matched at the start of a
text in all possible ways (`Pattern.rests`), and accepts a text that it matches as a whole.

* `Pattern.finds_rests`: the matcher finds what the pattern matches, and nothing else;
* `Pattern.accepts_iff`: so it is for whole texts;
* `Pattern.matches_ofText_iff` and its like: what the patterns match.
-/

/-- A regular expression. -/
inductive Pattern
  | empty
  /-- A character of a class. -/
  | char (isIn : Char → Bool)
  /-- The start of the text. -/
  | start
  | seq (p q : Pattern)
  | alt (p q : Pattern)
  | repeat (p : Pattern) (min max : ℕ)

namespace Pattern

/-- The characters from one to another. -/
def range (first last : Char) : Pattern := .char fun c => first ≤ c && c ≤ last

/-- A text. -/
def ofText : List Char → Pattern
  | [] => .empty
  | c :: text => .seq (.char (· = c)) (ofText text)

/-! ## Matching -/

/-- What is left of a text, with whether this is still all of it. -/
abbrev Rest := Bool × List Char

/-- So many steps, one after the other. -/
def times (step : Rest → List Rest) : ℕ → Rest → List Rest
  | 0, rest => [rest]
  | n + 1, rest => (step rest).flatMap (times step n)

/-- What is left of a text after the pattern, in all ways. -/
def rests : Pattern → Rest → List Rest
  | .empty, rest => [rest]
  | .char _, (_, []) => []
  | .char isIn, (_, c :: text) => if isIn c then [(false, text)] else []
  | .start, rest => if rest.1 then [rest] else []
  | .seq p q, rest => (p.rests rest).flatMap q.rests
  | .alt p q, rest => p.rests rest ++ q.rests rest
  | .repeat p min max, rest =>
    (List.range (max + 1)).flatMap fun n => if min ≤ n then times p.rests n rest else []

/-- The pattern matches all of a text. -/
def accepts (p : Pattern) (text : List Char) : Bool :=
  (p.rests (true, text)).any fun rest => rest.2.isEmpty

/-! ## Languages -/

/-- The texts of a language may depend on whether they are at the start of the whole text. -/
abbrev Lang := Bool → List Char → Prop

/-- Texts of one language, followed by texts of another one. -/
def Concat (L M : Lang) : Lang := fun atStart text =>
  ∃ first others, text = first ++ others ∧ L atStart first ∧ M (atStart && first.isEmpty) others

/-- So many texts of a language, one after the other. -/
def Powers (L : Lang) : ℕ → Lang
  | 0 => fun _ text => text = []
  | n + 1 => Concat L (Powers L n)

/-- The texts that a pattern matches. -/
def Matches : Pattern → Lang
  | .empty => fun _ text => text = []
  | .char isIn => fun _ text => ∃ c, isIn c = true ∧ text = [c]
  | .start => fun atStart text => atStart = true ∧ text = []
  | .seq p q => Concat p.Matches q.Matches
  | .alt p q => fun atStart text => p.Matches atStart text ∨ q.Matches atStart text
  | .repeat p min max => fun atStart text =>
    ∃ n, min ≤ n ∧ n ≤ max ∧ Powers p.Matches n atStart text

/-- What is left after a part of the text. -/
def restAfter (atStart : Bool) (part text : List Char) : Rest := (atStart && part.isEmpty, text)

/-- A step leaves what is left after the texts of a language. -/
def Finds (step : Rest → List Rest) (L : Lang) : Prop :=
  ∀ atStart text rest, rest ∈ step (atStart, text) ↔
    ∃ part, text = part ++ rest.2 ∧ L atStart part ∧ rest = restAfter atStart part rest.2

section
variable {p q : Pattern} {atStart : Bool} {text : List Char} {step step' : Rest → List Rest}
  {L M : Lang}

theorem restAfter_append {first others : List Char} :
    restAfter (atStart && first.isEmpty) others text =
      restAfter atStart (first ++ others) text := by
  cases first <;> simp [restAfter]

theorem restAfter_nil : restAfter atStart [] text = (atStart, text) := by
  rw [restAfter, List.isEmpty_nil, Bool.and_true]

theorem finds_singleton : Finds (fun rest => [rest]) fun _ text => text = [] := by
  intro atStart text rest
  rw [List.mem_singleton]
  constructor
  · rintro rfl
    exact ⟨[], rfl, rfl, restAfter_nil.symm⟩
  · rintro ⟨part, htext, rfl, hrest⟩
    rw [hrest, htext, restAfter_nil]
    rfl

/-- One step after the other. -/
theorem Finds.flatMap (h : Finds step L) (h' : Finds step' M) :
    Finds (fun rest => (step rest).flatMap step') (Concat L M) := by
  intro atStart text rest
  rw [List.mem_flatMap]
  constructor
  · rintro ⟨⟨atStart', text'⟩, hstep, hrest⟩
    obtain ⟨first, htext, hfirst, hafter⟩ := (h _ _ _).1 hstep
    obtain ⟨others, htext', hothers, hrest⟩ := (h' _ _ _).1 hrest
    obtain ⟨rfl, -⟩ := Prod.mk.inj hafter
    dsimp only at htext htext'
    refine ⟨first ++ others, ?_, ⟨first, others, rfl, hfirst, hothers⟩, ?_⟩
    · rw [htext, htext', List.append_assoc]
    · rw [← restAfter_append]
      exact hrest
  · rintro ⟨part, htext, ⟨first, others, rfl, hfirst, hothers⟩, hrest⟩
    refine ⟨restAfter atStart first (others ++ rest.2), (h _ _ _).2 ⟨first, ?_, hfirst, rfl⟩,
      (h' _ _ _).2 ⟨others, rfl, hothers, ?_⟩⟩
    · rw [htext, List.append_assoc]
      rfl
    · rw [restAfter_append]
      exact hrest

theorem Finds.times (h : Finds step L) (n : ℕ) : Finds (times step n) (Powers L n) := by
  induction n with
  | zero => exact finds_singleton
  | succ n ih => exact h.flatMap ih

theorem finds_char (isIn : Char → Bool) :
    Finds (Pattern.char isIn).rests (Pattern.char isIn).Matches := by
  intro atStart text rest
  cases text with
  | nil =>
    refine iff_of_false List.not_mem_nil ?_
    rintro ⟨part, htext, ⟨c, -, rfl⟩, -⟩
    exact nomatch htext
  | cons c text =>
    rw [rests]
    constructor
    · intro hrest
      split_ifs at hrest with hc
      · rw [List.mem_singleton.1 hrest]
        exact ⟨[c], rfl, ⟨c, hc, rfl⟩, by rw [restAfter, List.isEmpty_cons, Bool.and_false]⟩
      · exact absurd hrest List.not_mem_nil
    · rintro ⟨part, htext, ⟨d, hd, rfl⟩, hrest⟩
      obtain ⟨rfl, rfl⟩ := List.cons.inj htext
      rw [if_pos hd, hrest, restAfter, List.isEmpty_cons, Bool.and_false]
      exact List.mem_singleton_self _

/-- What the matcher leaves is what is left after the texts that the pattern matches. -/
theorem finds_rests (p : Pattern) : Finds p.rests p.Matches := by
  induction p with
  | empty => exact finds_singleton
  | char isIn => exact finds_char isIn
  | start =>
    intro atStart text rest
    rw [rests]
    cases atStart with
    | false => exact iff_of_false List.not_mem_nil fun ⟨_, _, h, _⟩ => nomatch h.1
    | true =>
      refine (finds_singleton true text rest).trans ?_
      simp only [Matches, true_and]
  | seq p q ihp ihq => exact ihp.flatMap ihq
  | alt p q ihp ihq =>
    intro atStart text rest
    rw [rests, List.mem_append, ihp, ihq]
    simp only [Matches, or_and_right, and_or_left, exists_or]
  | «repeat» p min max ih =>
    intro atStart text rest
    rw [rests, List.mem_flatMap]
    constructor
    · rintro ⟨n, hn, hrest⟩
      split_ifs at hrest with hmin
      · obtain ⟨part, htext, hpart, hafter⟩ := (ih.times n _ _ _).1 hrest
        exact ⟨part, htext, ⟨n, hmin, Nat.lt_succ_iff.1 (List.mem_range.1 hn), hpart⟩, hafter⟩
      · exact absurd hrest List.not_mem_nil
    · rintro ⟨part, htext, ⟨n, hmin, hmax, hpart⟩, hafter⟩
      refine ⟨n, List.mem_range.2 (Nat.lt_succ_of_le hmax), ?_⟩
      rw [if_pos hmin]
      exact (ih.times n _ _ _).2 ⟨part, htext, hpart, hafter⟩

/-- A pattern accepts the texts that it matches. -/
theorem accepts_iff : p.accepts text = true ↔ p.Matches true text := by
  rw [accepts, List.any_eq_true]
  constructor
  · rintro ⟨⟨atStart, rest⟩, hrest, hempty⟩
    obtain ⟨part, htext, hpart, -⟩ := (finds_rests p _ _ _).1 hrest
    rw [List.isEmpty_iff] at hempty
    dsimp only at htext hempty
    rw [hempty, List.append_nil] at htext
    rwa [htext]
  · intro hmatches
    refine ⟨restAfter true text [], (finds_rests p _ _ _).2 ⟨text, ?_, hmatches, rfl⟩, rfl⟩
    exact (List.append_nil text).symm

/-! ## What is matched -/

/-- A character, and more. -/
theorem matches_char_seq_iff {isIn : Char → Bool} : (seq (.char isIn) q).Matches atStart text ↔
    ∃ c others, text = c :: others ∧ isIn c = true ∧ q.Matches false others := by
  constructor
  · rintro ⟨first, others, rfl, ⟨c, hc, rfl⟩, hothers⟩
    rw [List.isEmpty_cons, Bool.and_false] at hothers
    exact ⟨c, others, rfl, hc, hothers⟩
  · rintro ⟨c, others, rfl, hc, hothers⟩
    refine ⟨[c], others, rfl, ⟨c, hc, rfl⟩, ?_⟩
    rwa [List.isEmpty_cons, Bool.and_false]

/-- A text matches itself. -/
theorem matches_ofText_iff {word : List Char} :
    (ofText word).Matches atStart text ↔ text = word := by
  induction word generalizing atStart text with
  | nil => exact Iff.rfl
  | cons c word ih =>
    rw [ofText, matches_char_seq_iff]
    constructor
    · rintro ⟨d, others, rfl, hd, hothers⟩
      rw [of_decide_eq_true hd, ih.1 hothers]
    · rintro rfl
      exact ⟨c, word, rfl, decide_eq_true rfl, ih.2 rfl⟩

/-- A text, and more. -/
theorem matches_ofText_seq_iff {word : List Char} : (seq (ofText word) q).Matches atStart text ↔
    ∃ others, text = word ++ others ∧ q.Matches (atStart && word.isEmpty) others := by
  constructor
  · rintro ⟨first, others, rfl, hfirst, hothers⟩
    obtain rfl := matches_ofText_iff.1 hfirst
    exact ⟨others, rfl, hothers⟩
  · rintro ⟨others, rfl, hothers⟩
    exact ⟨word, others, rfl, matches_ofText_iff.2 rfl, hothers⟩

/-- The anchor matches at the start only. -/
theorem matches_start_seq_iff :
    (seq .start q).Matches atStart text ↔ atStart = true ∧ q.Matches atStart text := by
  constructor
  · rintro ⟨first, others, rfl, ⟨hstart, rfl⟩, hothers⟩
    rw [List.isEmpty_nil, Bool.and_true] at hothers
    exact ⟨hstart, hothers⟩
  · rintro ⟨hstart, hothers⟩
    refine ⟨[], text, rfl, ⟨hstart, rfl⟩, ?_⟩
    rwa [List.isEmpty_nil, Bool.and_true]

theorem powers_char_iff {isIn : Char → Bool} {n : ℕ} :
    Powers (char isIn).Matches n atStart text ↔ text.length = n ∧ ∀ c ∈ text, isIn c = true := by
  induction n generalizing atStart text with
  | zero =>
    rw [List.length_eq_zero_iff]
    exact ⟨fun h => ⟨h, h ▸ List.forall_mem_nil _⟩, fun h => h.1⟩
  | succ n ih =>
    constructor
    · rintro ⟨first, others, rfl, ⟨c, hc, rfl⟩, hothers⟩
      obtain ⟨hlength, hall⟩ := ih.1 hothers
      rw [List.singleton_append, List.length_cons, List.forall_mem_cons, hlength]
      exact ⟨rfl, hc, hall⟩
    · rintro ⟨hlength, hall⟩
      obtain ⟨c, others, rfl⟩ := List.exists_cons_of_length_eq_add_one hlength
      rw [List.forall_mem_cons] at hall
      exact ⟨[c], others, rfl, ⟨c, hall.1, rfl⟩, ih.2 ⟨Nat.succ.inj hlength, hall.2⟩⟩

/-- Some characters of a class. -/
theorem matches_repeat_char_iff {isIn : Char → Bool} {min max : ℕ} :
    (Pattern.repeat (char isIn) min max).Matches atStart text ↔
      min ≤ text.length ∧ text.length ≤ max ∧ ∀ c ∈ text, isIn c = true := by
  constructor
  · rintro ⟨n, hmin, hmax, hpowers⟩
    obtain ⟨rfl, hall⟩ := powers_char_iff.1 hpowers
    exact ⟨hmin, hmax, hall⟩
  · rintro ⟨hmin, hmax, hall⟩
    exact ⟨text.length, hmin, hmax, powers_char_iff.2 ⟨rfl, hall⟩⟩

end

end Pattern
