import Mathlib.Data.List.Basic
import Mathlib.Data.List.Range

/-!
# Regular expressions with anchors

A subject is a list of characters, and an expression matches spans of it, from one
position to another. `^` and `$` match empty spans at the ends; `$` also matches
before a newline that ends the subject. Which characters count as the same, and
which are newlines, is a `Reading`.

`ends` computes the spans that start at a position, and `search` whether there is
any span. `Syntax.parse` reads an expression of literals, escapes, `.`, anchors and
the three simple quantifiers. Whatever else has a meaning in a pattern is not read.

## Main results

- `Regex.mem_ends` — the computed ends are those of the matched spans
- `Regex.search_iff` — `search` finds a span if there is one
-/

inductive Regex (α : Type*)
  | empty
  | char (c : α)
  | any
  | start
  | stop
  | seq (r q : Regex α)
  | alt (r q : Regex α)
  | star (r : Regex α)
deriving DecidableEq

namespace Regex

variable {α : Type*}

/-- When a character of the subject is taken for one of the expression, and which characters are
    newlines, which `.` does not take. -/
structure Reading (α : Type*) where
  same : α → α → Bool
  newline : α → Bool

variable (R : Reading α) (s : List α)

/-- The expression matches the subject from the first position to the second. -/
inductive Matches : Regex α → ℕ → ℕ → Prop
  | empty {i : ℕ} (hi : i ≤ s.length) : Matches .empty i i
  | char {c d : α} {i : ℕ} (hd : s[i]? = some d) (hsame : R.same c d = true) :
      Matches (.char c) i (i + 1)
  | any {d : α} {i : ℕ} (hd : s[i]? = some d) (hline : R.newline d = false) : Matches .any i (i + 1)
  | start : Matches .start 0 0
  | stop : Matches .stop s.length s.length
  | lastLine {d : α} {i : ℕ} (hd : s[i]? = some d) (hlast : i + 1 = s.length)
      (hline : R.newline d = true) : Matches .stop i i
  | seq {r q : Regex α} {i j k : ℕ} (hr : Matches r i j) (hq : Matches q j k) :
      Matches (.seq r q) i k
  | left {r q : Regex α} {i j : ℕ} (h : Matches r i j) : Matches (.alt r q) i j
  | right {r q : Regex α} {i j : ℕ} (h : Matches q i j) : Matches (.alt r q) i j
  | done {r : Regex α} {i : ℕ} (hi : i ≤ s.length) : Matches (.star r) i i
  | again {r : Regex α} {i j k : ℕ} (hr : Matches r i j) (hstar : Matches (.star r) j k) :
      Matches (.star r) i k

/-- The expression matches somewhere. -/
def Searches (r : Regex α) : Prop := ∃ i j, Matches R s r i j

/-! ## The matcher -/

/-- What is reached from a position by steps that move on, no more than `fuel` of them. -/
def closure (next : ℕ → List ℕ) : (fuel : ℕ) → ℕ → List ℕ
  | 0, i => [i]
  | fuel + 1, i => i :: ((next i).filter (i < ·)).flatMap (closure next fuel)

/-- Where the spans that start at a position end. -/
def ends : Regex α → ℕ → List ℕ
  | .empty, i => if i ≤ s.length then [i] else []
  | .char c, i => if s[i]?.any (R.same c) then [i + 1] else []
  | .any, i => if s[i]?.any (fun d => !R.newline d) then [i + 1] else []
  | .start, i => if i = 0 then [0] else []
  | .stop, i =>
    if i = s.length || (i + 1 = s.length && s[i]?.any R.newline) then [i] else []
  | .seq r q, i => (ends r i).flatMap (ends q)
  | .alt r q, i => ends r i ++ ends q i
  | .star r, i => if i ≤ s.length then closure (ends r) (s.length - i) i else []

def search (r : Regex α) : Bool :=
  (List.range (s.length + 1)).any fun i => !(ends R s r i).isEmpty

variable {R s}

theorem Matches.le {r : Regex α} {i j : ℕ} (h : Matches R s r i j) : i ≤ j ∧ j ≤ s.length := by
  induction h with
  | empty hi => exact ⟨le_rfl, hi⟩
  | char hd _ =>
    obtain ⟨hlt, -⟩ := List.getElem?_eq_some_iff.mp hd
    exact ⟨Nat.le_succ _, hlt⟩
  | any hd _ =>
    obtain ⟨hlt, -⟩ := List.getElem?_eq_some_iff.mp hd
    exact ⟨Nat.le_succ _, hlt⟩
  | start => exact ⟨le_rfl, Nat.zero_le _⟩
  | stop => exact ⟨le_rfl, le_rfl⟩
  | lastLine _ hlast _ => exact ⟨le_rfl, by omega⟩
  | seq _ _ ihr ihq => exact ⟨ihr.1.trans ihq.1, ihq.2⟩
  | left _ ih => exact ih
  | right _ ih => exact ih
  | done hi => exact ⟨le_rfl, hi⟩
  | again _ _ ihr ihstar => exact ⟨ihr.1.trans ihstar.1, ihstar.2⟩

theorem matches_seq_iff {r q : Regex α} {i k : ℕ} :
    Matches R s (.seq r q) i k ↔ ∃ j, Matches R s r i j ∧ Matches R s q j k := by
  constructor
  · intro h
    cases h with
    | seq hr hq => exact ⟨_, hr, hq⟩
  · rintro ⟨j, hr, hq⟩
    exact .seq hr hq

theorem matches_char_iff {c : α} {i j : ℕ} :
    Matches R s (.char c) i j ↔ (∃ d, s[i]? = some d ∧ R.same c d = true) ∧ j = i + 1 := by
  constructor
  · intro h
    cases h with
    | char hd hsame => exact ⟨⟨_, hd, hsame⟩, rfl⟩
  · rintro ⟨⟨d, hd, hsame⟩, rfl⟩
    exact .char hd hsame

theorem matches_any_iff {i j : ℕ} :
    Matches R s .any i j ↔ (∃ d, s[i]? = some d ∧ R.newline d = false) ∧ j = i + 1 := by
  constructor
  · intro h
    cases h with
    | any hd hline => exact ⟨⟨_, hd, hline⟩, rfl⟩
  · rintro ⟨⟨d, hd, hline⟩, rfl⟩
    exact .any hd hline

/-- Through a part of the subject without newlines `.*` goes as far as one likes. -/
theorem matches_star_any {i j : ℕ} (hij : i ≤ j) (hj : j ≤ s.length)
    (hline : ∀ d ∈ s, R.newline d = false) : Matches R s (.star .any) i j := by
  induction hij using Nat.decreasingInduction with
  | self => exact .done hj
  | of_succ i hij ih =>
    have hi : s[i]? = some s[i] := List.getElem?_eq_getElem (by omega)
    exact .again (.any hi (hline _ (List.getElem_mem _))) ih

theorem mem_closure_self (next : ℕ → List ℕ) (fuel i : ℕ) : i ∈ closure next fuel i := by
  cases fuel with
  | zero => exact List.mem_cons_self
  | succ fuel => exact List.mem_cons_self

/-- With the spans of `r` as steps the closure is within the spans of `r*`. -/
theorem matches_star_of_mem_closure {r : Regex α} {next : ℕ → List ℕ}
    (hnext : ∀ i j, j ∈ next i → Matches R s r i j) {fuel i j : ℕ} (hi : i ≤ s.length)
    (hj : j ∈ closure next fuel i) : Matches R s (.star r) i j := by
  induction fuel generalizing i with
  | zero =>
    rw [List.mem_singleton.mp hj]
    exact .done hi
  | succ fuel ih =>
    cases List.mem_cons.mp hj with
    | inl heq =>
      rw [heq]
      exact .done hi
    | inr hmem =>
      obtain ⟨k, hk, hj⟩ := List.mem_flatMap.mp hmem
      have hr := hnext i k (List.mem_filter.mp hk).1
      exact .again hr (ih hr.le.2 hj)

/-- It has them all if there is fuel for every position to come: steps that stay where they are
    can be left out. -/
theorem mem_closure_of_matches_star {r : Regex α} {next : ℕ → List ℕ}
    (hnext : ∀ i j, Matches R s r i j → j ∈ next i) {i j : ℕ} (h : Matches R s (.star r) i j)
    {fuel : ℕ} (hfuel : s.length - i ≤ fuel) : j ∈ closure next fuel i := by
  generalize hq : Regex.star r = q at h
  induction h generalizing fuel with
  | done _ => exact mem_closure_self next fuel _
  | @again r' i k j hr hstar _ ih =>
    injection hq with hq
    subst hq
    obtain ⟨hik, hk⟩ := hr.le
    obtain rfl | hlt := hik.eq_or_lt
    · exact ih hfuel rfl
    · cases fuel with
      | zero => omega
      | succ fuel =>
        refine List.mem_cons_of_mem _ (List.mem_flatMap.mpr ⟨k, ?_, ih (by omega) rfl⟩)
        exact List.mem_filter.mpr ⟨hnext i k hr, decide_eq_true hlt⟩
  | _ => exact absurd hq (by simp)

/-- The matcher finds the spans that are matched. -/
theorem mem_ends {r : Regex α} {i j : ℕ} : j ∈ ends R s r i ↔ Matches R s r i j := by
  induction r generalizing i j with
  | empty =>
    rw [ends, List.mem_ite_nil_right, List.mem_singleton]
    constructor
    · rintro ⟨hi, rfl⟩
      exact .empty hi
    · intro h
      cases h with
      | empty hi => exact ⟨hi, rfl⟩
  | char c =>
    rw [ends, List.mem_ite_nil_right, List.mem_singleton, Option.any_eq_true, matches_char_iff]
  | any =>
    rw [ends, List.mem_ite_nil_right, List.mem_singleton, Option.any_eq_true, matches_any_iff]
    simp only [Bool.not_eq_true']
  | start =>
    rw [ends, List.mem_ite_nil_right, List.mem_singleton]
    constructor
    · rintro ⟨rfl, rfl⟩
      exact .start
    · intro h
      cases h with
      | start => exact ⟨rfl, rfl⟩
  | stop =>
    rw [ends, List.mem_ite_nil_right, List.mem_singleton]
    simp only [Bool.or_eq_true, Bool.and_eq_true, decide_eq_true_eq, Option.any_eq_true]
    constructor
    · rintro ⟨rfl | ⟨hlast, d, hd, hline⟩, rfl⟩
      · exact .stop
      · exact .lastLine hd hlast hline
    · intro h
      cases h with
      | stop => exact ⟨.inl rfl, rfl⟩
      | lastLine hd hlast hline => exact ⟨.inr ⟨hlast, _, hd, hline⟩, rfl⟩
  | seq r q ihr ihq =>
    rw [ends, List.mem_flatMap, matches_seq_iff]
    exact exists_congr fun k => and_congr ihr ihq
  | alt r q ihr ihq =>
    rw [ends, List.mem_append, ihr, ihq]
    constructor
    · rintro (h | h)
      · exact .left h
      · exact .right h
    · intro h
      cases h with
      | left h => exact .inl h
      | right h => exact .inr h
  | star r ih =>
    rw [ends, List.mem_ite_nil_right]
    constructor
    · rintro ⟨hi, h⟩
      exact matches_star_of_mem_closure (fun _ _ => ih.mp) hi h
    · intro h
      exact ⟨h.le.1.trans h.le.2, mem_closure_of_matches_star (fun _ _ => ih.mpr) h le_rfl⟩

theorem search_iff {r : Regex α} : search R s r = true ↔ Searches R s r := by
  rw [search, List.any_eq_true]
  constructor
  · rintro ⟨i, -, hi⟩
    obtain ⟨j, hj⟩ := List.exists_mem_of_ne_nil (ends R s r i) (by simpa using hi)
    exact ⟨i, j, mem_ends.mp hj⟩
  · rintro ⟨i, j, h⟩
    refine ⟨i, List.mem_range.mpr (by have := h.le; omega), ?_⟩
    have hne := List.ne_nil_of_mem (mem_ends.mpr h)
    simpa using hne

/-! ## Patterns -/

namespace Syntax

/-- The characters that mean something in a pattern. -/
def metaChars : List Char :=
  ['.', '+', '*', '?', '(', ')', '|', '[', ']', '{', '}', '^', '$', '\\']

/-- What one character is matched by, an anchor or an escape included, and what is left. A letter
    or a digit after a backslash means something of its own. -/
def atom : List Char → Option (Regex Char × List Char)
  | [] => none
  | '.' :: cs => some (.any, cs)
  | '^' :: cs => some (.start, cs)
  | '$' :: cs => some (.stop, cs)
  | '\\' :: c :: cs => if c.isAlphanum then none else some (.char c, cs)
  | c :: cs => if c ∈ metaChars then none else some (.char c, cs)

/-- An expression that takes one character, which a quantifier may follow. -/
def isSingle : Regex Char → Bool
  | .char _ => true
  | .any => true
  | _ => false

/-- The quantifier after an expression, if there is one, and what is left. -/
def quantified (r : Regex Char) : List Char → Option (Regex Char × List Char)
  | '*' :: cs => if isSingle r then some (.star r, cs) else none
  | '+' :: cs => if isSingle r then some (.seq r (.star r), cs) else none
  | '?' :: cs => if isSingle r then some (.alt r .empty, cs) else none
  | cs => some (r, cs)

def sequence : (fuel : ℕ) → List Char → Option (Regex Char)
  | _, [] => some .empty
  | 0, _ :: _ => none
  | fuel + 1, c :: cs => do
    let (r, cs) ← atom (c :: cs)
    let (r, cs) ← quantified r cs
    let q ← sequence fuel cs
    pure (.seq r q)

/-- Every expression of a sequence takes at least one character of the pattern. -/
def parse (pattern : List Char) : Option (Regex Char) := sequence pattern.length pattern

theorem atom_literal {c : Char} (hc : c ∉ metaChars) (cs : List Char) :
    atom (c :: cs) = some (.char c, cs) := by
  simp only [metaChars, List.mem_cons, List.not_mem_nil, or_false, not_or] at hc
  rw [atom.eq_def]
  split <;> simp_all [metaChars]

theorem atom_escape {c : Char} (hc : c.isAlphanum = false) (cs : List Char) :
    atom ('\\' :: c :: cs) = some (.char c, cs) := by
  rw [atom, hc]
  rfl

/-- No quantifier follows. -/
theorem quantified_of_head {cs : List Char} (hcs : ∀ c ∈ cs.head?, c ≠ '*' ∧ c ≠ '+' ∧ c ≠ '?')
    (r : Regex Char) : quantified r cs = some (r, cs) := by
  cases cs with
  | nil => rfl
  | cons c cs =>
    obtain ⟨hstar, hplus, hquestion⟩ := hcs c rfl
    rw [quantified.eq_def]
    split <;> simp_all

/-- One step of the parser. -/
theorem sequence_cons {fuel : ℕ} {c : Char} {cs left rest : List Char} {r q : Regex Char}
    (hatom : atom (c :: cs) = some (r, left)) (hquantified : quantified r left = some (q, rest)) :
    sequence (fuel + 1) (c :: cs) = (sequence fuel rest).map (.seq q) := by
  rw [sequence, hatom]
  simp only [Option.bind_eq_bind, Option.bind_some, hquantified]
  cases sequence fuel rest with
  | none => rfl
  | some p => rfl

end Syntax

end Regex
