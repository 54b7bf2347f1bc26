import AmuleRemote.Lib.Regex

/-!
# Globs as regular expressions

A glob matches a text as a whole: `*` any characters, `?` one, and every other
character one that is the same. `regex` is the expression with anchors that does
so, and `pattern` the pattern that is read as this expression: `.*` for `*`, `.` for
`?`, and an escape for a character that means something in a pattern.

## Main results

- `Glob.searches_regex` — the expression matches in a text that the glob matches
- `Glob.parse_pattern` — the pattern stands for the expression
-/

namespace Glob

inductive Piece (α : Type*)
  | many
  | one
  | char (c : α)
deriving DecidableEq

variable {α : Type*}

/-- The whole text is what the glob stands for. -/
inductive Matches (same : α → α → Bool) : List (Piece α) → List α → Prop
  | nil : Matches same [] []
  | many {g : List (Piece α)} {rest : List α} (skipped : List α) (h : Matches same g rest) :
      Matches same (.many :: g) (skipped ++ rest)
  | one {g : List (Piece α)} {rest : List α} (d : α) (h : Matches same g rest) :
      Matches same (.one :: g) (d :: rest)
  | char {c d : α} {g : List (Piece α)} {rest : List α} (hsame : same c d = true)
      (h : Matches same g rest) : Matches same (.char c :: g) (d :: rest)

def pieceRegex : Piece α → Regex α
  | .many => .star .any
  | .one => .any
  | .char c => .char c

/-- The pieces, and then the end. -/
def tailRegex : List (Piece α) → Regex α
  | [] => .seq .stop .empty
  | p :: g => .seq (pieceRegex p) (tailRegex g)

def regex (g : List (Piece α)) : Regex α := .seq .start (tailRegex g)

section

variable {R : Regex.Reading α} {s : List α}

theorem drop_eq_cons_iff {i : ℕ} {d : α} {rest : List α} :
    s.drop i = d :: rest ↔ s[i]? = some d ∧ s.drop (i + 1) = rest := by
  constructor
  · intro h
    have hd : s[i]? = some d := by rw [← List.head?_drop, h, List.head?_cons]
    have hrest : s.drop (i + 1) = (s.drop i).tail := by rw [List.tail_drop]
    exact ⟨hd, by rw [hrest, h, List.tail_cons]⟩
  · rintro ⟨hd, rfl⟩
    obtain ⟨hlt, rfl⟩ := List.getElem?_eq_some_iff.mp hd
    exact List.drop_eq_getElem_cons hlt

/-- An expression that takes a character with `P`, and then another expression. -/
theorem exists_seq_single {r q : Regex α} {P : α → Prop} {i : ℕ}
    (hr : ∀ {j}, Regex.Matches R s r i j ↔ (∃ d, s[i]? = some d ∧ P d) ∧ j = i + 1) :
    (∃ j, Regex.Matches R s (.seq r q) i j) ↔
      ∃ d, s[i]? = some d ∧ P d ∧ ∃ j, Regex.Matches R s q (i + 1) j := by
  constructor
  · rintro ⟨j, h⟩
    obtain ⟨k, hsingle, hrest⟩ := Regex.matches_seq_iff.mp h
    obtain ⟨⟨d, hd, hP⟩, rfl⟩ := hr.mp hsingle
    exact ⟨d, hd, hP, j, hrest⟩
  · rintro ⟨d, hd, hP, j, hrest⟩
    exact ⟨j, .seq (hr.mpr ⟨⟨d, hd, hP⟩, rfl⟩) hrest⟩

theorem matches_one_iff {same : α → α → Bool} {g : List (Piece α)} {text : List α} :
    Matches same (.one :: g) text ↔ ∃ d rest, text = d :: rest ∧ Matches same g rest := by
  constructor
  · intro h
    cases h with
    | one d h => exact ⟨d, _, rfl, h⟩
  · rintro ⟨d, rest, rfl, h⟩
    exact .one d h

theorem matches_char_iff {same : α → α → Bool} {c : α} {g : List (Piece α)} {text : List α} :
    Matches same (.char c :: g) text ↔
      ∃ d rest, text = d :: rest ∧ same c d = true ∧ Matches same g rest := by
  constructor
  · intro h
    cases h with
    | char hsame h => exact ⟨_, _, rfl, hsame, h⟩
  · rintro ⟨d, rest, rfl, hsame, h⟩
    exact .char hsame h

theorem matches_nil_iff {same : α → α → Bool} {text : List α} :
    Matches same [] text ↔ text = [] := by
  constructor
  · intro h
    cases h with
    | nil => rfl
  · rintro rfl
    exact .nil

/-- `*` goes on to any later position. -/
theorem matches_many_iff {same : α → α → Bool} {g : List (Piece α)} {i : ℕ} (hi : i ≤ s.length) :
    Matches same (.many :: g) (s.drop i) ↔
      ∃ k, i ≤ k ∧ k ≤ s.length ∧ Matches same g (s.drop k) := by
  constructor
  · intro h
    generalize hs : s.drop i = text at h
    cases h with
    | @many _ rest skipped h =>
      have hlen : s.length - i = skipped.length + rest.length := by
        rw [← List.length_drop, hs, List.length_append]
      have hdrop : s.drop (i + skipped.length) = rest := by
        rw [← List.drop_drop, hs, List.drop_left]
      exact ⟨i + skipped.length, Nat.le_add_right _ _, by omega, hdrop ▸ h⟩
  · rintro ⟨k, hik, -, h⟩
    have hsplit : s.drop i = (s.drop i).take (k - i) ++ s.drop k := by
      conv_lhs => rw [← List.take_append_drop (k - i) (s.drop i)]
      rw [List.drop_drop, Nat.add_sub_cancel' hik]
    rw [hsplit]
    exact .many _ h

/-- The expression of the rest of a glob matches from a position on what the rest of the glob
    does. -/
theorem matches_tailRegex (hline : ∀ d ∈ s, R.newline d = false) {g : List (Piece α)} {i : ℕ}
    (hi : i ≤ s.length) :
    (∃ j, Regex.Matches R s (tailRegex g) i j) ↔ Matches R.same g (s.drop i) := by
  induction g generalizing i with
  | nil =>
    rw [tailRegex, matches_nil_iff, List.drop_eq_nil_iff]
    constructor
    · rintro ⟨j, h⟩
      obtain ⟨k, hstop, -⟩ := Regex.matches_seq_iff.mp h
      cases hstop with
      | stop => exact le_rfl
      | lastLine hd _ hnewline =>
        -- a newline would have to end the text
        rw [hline _ (List.mem_of_getElem? hd)] at hnewline
        exact absurd hnewline Bool.false_ne_true
    · intro hend
      obtain rfl : i = s.length := le_antisymm hi hend
      exact ⟨_, .seq .stop (.empty le_rfl)⟩
  | cons p g ih =>
    rw [tailRegex]
    cases p with
    | many =>
      rw [pieceRegex, matches_many_iff hi]
      constructor
      · rintro ⟨j, h⟩
        obtain ⟨k, hskip, hrest⟩ := Regex.matches_seq_iff.mp h
        obtain ⟨hik, hk⟩ := hskip.le
        exact ⟨k, hik, hk, (ih hk).mp ⟨j, hrest⟩⟩
      · rintro ⟨k, hik, hk, h⟩
        obtain ⟨j, hj⟩ := (ih hk).mpr h
        exact ⟨j, .seq (Regex.matches_star_any hik hk hline) hj⟩
    | one =>
      rw [pieceRegex, exists_seq_single Regex.matches_any_iff, matches_one_iff]
      refine exists_congr fun d => ?_
      simp only [drop_eq_cons_iff]
      constructor
      · rintro ⟨hd, -, hrest⟩
        obtain ⟨hlt, -⟩ := List.getElem?_eq_some_iff.mp hd
        exact ⟨_, ⟨hd, rfl⟩, (ih hlt).mp hrest⟩
      · rintro ⟨_, ⟨hd, rfl⟩, hrest⟩
        obtain ⟨hlt, -⟩ := List.getElem?_eq_some_iff.mp hd
        exact ⟨hd, hline d (List.mem_of_getElem? hd), (ih hlt).mpr hrest⟩
    | char c =>
      rw [pieceRegex, exists_seq_single Regex.matches_char_iff, matches_char_iff]
      refine exists_congr fun d => ?_
      simp only [drop_eq_cons_iff]
      constructor
      · rintro ⟨hd, hsame, hrest⟩
        obtain ⟨hlt, -⟩ := List.getElem?_eq_some_iff.mp hd
        exact ⟨_, ⟨hd, rfl⟩, hsame, (ih hlt).mp hrest⟩
      · rintro ⟨_, ⟨hd, rfl⟩, hsame, hrest⟩
        obtain ⟨hlt, -⟩ := List.getElem?_eq_some_iff.mp hd
        exact ⟨hd, hsame, (ih hlt).mpr hrest⟩

/-- In a text without newlines the expression matches somewhere exactly if the glob matches the
    whole text. -/
theorem searches_regex (hline : ∀ d ∈ s, R.newline d = false) {g : List (Piece α)} :
    Regex.Searches R s (regex g) ↔ Matches R.same g s := by
  rw [← List.drop_zero (l := s), ← matches_tailRegex hline (Nat.zero_le _), List.drop_zero]
  constructor
  · rintro ⟨i, j, h⟩
    obtain ⟨k, hstart, hrest⟩ := Regex.matches_seq_iff.mp h
    cases hstart with
    | start => exact ⟨j, hrest⟩
  · rintro ⟨j, h⟩
    exact ⟨0, j, .seq .start h⟩

end

/-! ## Globs as text -/

/-- What a character of a glob stands for. -/
def piece (c : Char) : Piece Char :=
  if c = '*' then .many else if c = '?' then .one else .char c

/-- A character of a glob in a pattern. -/
def escaped (c : Char) : List Char :=
  if c = '*' then ['.', '*']
  else if c = '?' then ['.']
  else if c ∈ Regex.Syntax.metaChars then ['\\', c]
  else [c]

/-- The glob between anchors. -/
def pattern (glob : List Char) : List Char := '^' :: (glob.flatMap escaped ++ ['$'])

theorem not_isAlphanum_of_mem {c : Char} (hc : c ∈ Regex.Syntax.metaChars) :
    c.isAlphanum = false := by
  simp only [Regex.Syntax.metaChars, List.mem_cons, List.not_mem_nil, or_false] at hc
  rcases hc with rfl | rfl | rfl | rfl | rfl | rfl | rfl | rfl | rfl | rfl | rfl | rfl | rfl | rfl
    <;> rfl

/-- No character of a glob comes out as a quantifier of what stands before it. -/
theorem head_tail (glob : List Char) :
    ∀ c ∈ (glob.flatMap escaped ++ ['$']).head?, c ≠ '*' ∧ c ≠ '+' ∧ c ≠ '?' := by
  cases glob with
  | nil => simp
  | cons c glob =>
    rw [List.flatMap_cons, List.append_assoc, escaped]
    by_cases hstar : c = '*'
    · simp [hstar]
    · by_cases hquestion : c = '?'
      · simp [hquestion]
      · by_cases hmeta : c ∈ Regex.Syntax.metaChars
        · simp [hstar, hquestion, hmeta]
        · simp [hstar, hquestion, hmeta]
          rintro rfl
          exact hmeta (by decide)

open Regex.Syntax in
/-- The parser reads back what a character stands for. -/
theorem sequence_escaped (c : Char) {rest : List Char} {fuel : ℕ}
    (hrest : ∀ d ∈ rest.head?, d ≠ '*' ∧ d ≠ '+' ∧ d ≠ '?') :
    sequence (fuel + 1) (escaped c ++ rest) =
      (sequence fuel rest).map (.seq (pieceRegex (piece c))) := by
  rw [escaped, piece]
  by_cases hstar : c = '*'
  · rw [if_pos hstar, if_pos hstar]
    exact sequence_cons (r := .any) rfl rfl
  · rw [if_neg hstar, if_neg hstar]
    by_cases hquestion : c = '?'
    · rw [if_pos hquestion, if_pos hquestion]
      exact sequence_cons (r := .any) rfl (quantified_of_head hrest .any)
    · rw [if_neg hquestion, if_neg hquestion]
      by_cases hmeta : c ∈ metaChars
      · rw [if_pos hmeta]
        exact sequence_cons (atom_escape (not_isAlphanum_of_mem hmeta) rest)
          (quantified_of_head hrest _)
      · rw [if_neg hmeta]
        exact sequence_cons (atom_literal hmeta rest) (quantified_of_head hrest _)

theorem length_escaped_pos (c : Char) : 0 < (escaped c).length := by
  rw [escaped]
  split
  · exact Nat.zero_lt_two
  · split
    · exact Nat.zero_lt_one
    · split
      · exact Nat.zero_lt_two
      · exact Nat.zero_lt_one

open Regex.Syntax in
theorem sequence_tail (glob : List Char) {fuel : ℕ}
    (hfuel : (glob.flatMap escaped ++ ['$']).length ≤ fuel) :
    sequence fuel (glob.flatMap escaped ++ ['$']) = some (tailRegex (glob.map piece)) := by
  induction glob generalizing fuel with
  | nil =>
    cases fuel with
    | zero => simp at hfuel
    | succ fuel => cases fuel <;> rfl
  | cons c glob ih =>
    rw [List.flatMap_cons, List.append_assoc] at hfuel ⊢
    have hpos := length_escaped_pos c
    rw [List.length_append] at hfuel
    obtain ⟨fuel, rfl⟩ : ∃ n, fuel = n + 1 := Nat.exists_eq_succ_of_ne_zero (by omega)
    rw [sequence_escaped c (head_tail glob), ih (by omega)]
    rfl

/-- The pattern of a glob stands for the expression of the glob. -/
theorem parse_pattern (glob : List Char) :
    Regex.Syntax.parse (pattern glob) = some (regex (glob.map piece)) := by
  rw [Regex.Syntax.parse, pattern, List.length_cons,
    Regex.Syntax.sequence_cons (r := .start) rfl
      (Regex.Syntax.quantified_of_head (head_tail glob) .start),
    sequence_tail glob le_rfl]
  rfl

end Glob
