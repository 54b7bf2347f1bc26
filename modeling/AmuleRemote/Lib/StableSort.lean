import Mathlib.Data.List.Sort
import Mathlib.Logic.Function.Basic
import Mathlib.Order.RelClasses

/-!
# Stable sorting by a strict weak order

`Sorts r l l'` says that `l'` is `l` sorted stably: a permutation of it, in order,
in which the elements that tie stand as they did. For a strict weak order there is
one such list for each `l`, which `sort` computes.

`First p r` puts the elements with `p` before the others and orders each of the two
groups by `r`. It is a strict weak order if `r` is, and sorting by it is sorting
the groups and putting them together.

## Main results

- `StableSort.Sorts.eq_sort` — every stable sort gives the same list
- `StableSort.sort_eq_sort_iff` — what a stable sort makes of another arrangement
- `StableSort.sort_first` — sorting with a group in front
-/

namespace StableSort

variable {α : Type*} (r : α → α → Prop)

/-- Neither comes before the other. -/
def Ties (a b : α) : Prop := ¬r a b ∧ ¬r b a

instance decidableTies [DecidableRel r] (a b : α) : Decidable (Ties r a b) :=
  inferInstanceAs (Decidable (¬r a b ∧ ¬r b a))

structure Sorts [DecidableRel r] (l l' : List α) : Prop where
  perm : l'.Perm l
  ordered : l'.Pairwise fun a b => ¬r b a
  stable : ∀ a ∈ l, l'.filter (Ties r a) = l.filter (Ties r a)

def sort [DecidableRel r] (l : List α) : List α := l.insertionSort fun a b => ¬r b a

/-- Those with `p` first, and `r` among equals. -/
def First (p : α → Prop) (a b : α) : Prop := p a ∧ ¬p b ∨ (p a ↔ p b) ∧ r a b

instance decidableFirst [DecidableRel r] (p : α → Prop) [DecidablePred p] :
    DecidableRel (First r p) :=
  fun a b => inferInstanceAs (Decidable (p a ∧ ¬p b ∨ (p a ↔ p b) ∧ r a b))

variable {r}

/-! ## Strict weak orders -/

instance isStrictWeakOrder_lt [LinearOrder α] : IsStrictWeakOrder α (· < ·) :=
  isStrictWeakOrder_of_isOrderConnected

instance isStrictWeakOrder_gt [LinearOrder α] : IsStrictWeakOrder α (· > ·) :=
  isStrictWeakOrder_of_isOrderConnected

section order

variable [IsStrictWeakOrder α r]

theorem not_trans {a b c : α} (hba : ¬r b a) (hcb : ¬r c b) : ¬r c a := by
  intro hca
  have hab : ¬r a b := fun h => hcb (trans_of r hca h)
  have hbc : ¬r b c := fun h => hba (trans_of r h hca)
  exact (IsStrictWeakOrder.incomp_trans a b c ⟨hab, hba⟩ ⟨hbc, hcb⟩).2 hca

instance isTrans_not : IsTrans α fun a b => ¬r b a := ⟨fun _ _ _ hab hbc => not_trans hab hbc⟩

instance total_not : Std.Total fun a b : α => ¬r b a := by
  refine ⟨fun a b => ?_⟩
  by_cases h : r b a
  · exact .inr fun h' => irrefl_of r a (trans_of r h' h)
  · exact .inl h

theorem ties_self (a : α) : Ties r a a := ⟨irrefl_of r a, irrefl_of r a⟩

theorem Ties.trans {a b c : α} (h : Ties r a b) (h' : Ties r b c) : Ties r a c :=
  IsStrictWeakOrder.incomp_trans a b c h h'

instance isStrictWeakOrder_first (p : α → Prop) : IsStrictWeakOrder α (First r p) where
  irrefl a h := by
    cases h with
    | inl h => exact h.2 h.1
    | inr h => exact irrefl_of r a h.2
  trans a b c hab hbc := by
    rcases hab with ⟨ha, hb⟩ | ⟨hab, hrab⟩
    · rcases hbc with ⟨hb', -⟩ | ⟨hbc, -⟩
      · exact absurd hb' hb
      · exact .inl ⟨ha, fun hc => hb (hbc.mpr hc)⟩
    · rcases hbc with ⟨hb, hc⟩ | ⟨hbc, hrbc⟩
      · exact .inl ⟨hab.mpr hb, hc⟩
      · exact .inr ⟨hab.trans hbc, trans_of r hrab hrbc⟩
  incomp_trans a b c hab hbc := by
    -- elements that tie are on the same side of `p`
    have hsame : ∀ {x y : α}, ¬First r p x y ∧ ¬First r p y x → (p x ↔ p y) ∧ Ties r x y := by
      intro x y ⟨hxy, hyx⟩
      have hp : p x ↔ p y := by
        constructor
        · exact fun hx => by_contra fun hy => hxy (.inl ⟨hx, hy⟩)
        · exact fun hy => by_contra fun hx => hyx (.inl ⟨hy, hx⟩)
      exact ⟨hp, fun h => hxy (.inr ⟨hp, h⟩), fun h => hyx (.inr ⟨hp.symm, h⟩)⟩
    obtain ⟨hpab, hab⟩ := hsame hab
    obtain ⟨hpbc, hbc⟩ := hsame hbc
    have hac := hab.trans hbc
    constructor
    · rintro (⟨ha, hc⟩ | ⟨-, h⟩)
      · exact hc (hpbc.mp (hpab.mp ha))
      · exact hac.1 h
    · rintro (⟨hc, ha⟩ | ⟨-, h⟩)
      · exact ha (hpab.mpr (hpbc.mpr hc))
      · exact hac.2 h

end order

/-! ## Sorting -/

section sort

variable [DecidableRel r]

/-- A part of a sorted list is that part sorted. -/
theorem Sorts.filter {l l' : List α} (h : Sorts r l l') (p : α → Bool) :
    Sorts r (l.filter p) (l'.filter p) := by
  refine ⟨h.perm.filter p, h.ordered.filter p, fun a ha => ?_⟩
  have hstable := h.stable a (List.mem_of_mem_filter ha)
  rw [List.filter_comm (l := l'), List.filter_comm (l := l), hstable]

/-- Only how the elements of the list compare with each other matters. -/
theorem Sorts.congr {s : α → α → Prop} [DecidableRel s] {l l' : List α}
    (hrs : ∀ a ∈ l, ∀ b ∈ l, r a b ↔ s a b) (h : Sorts r l l') : Sorts s l l' := by
  refine ⟨h.perm, ?_, fun a ha => ?_⟩
  · refine h.ordered.imp_of_mem fun {a b} ha hb hba hs => hba ?_
    exact (hrs b (h.perm.mem_iff.mp hb) a (h.perm.mem_iff.mp ha)).mpr hs
  · have hties : ∀ b ∈ l, Ties r a b ↔ Ties s a b := fun b hb =>
      and_congr (not_congr (hrs a ha b hb)) (not_congr (hrs b hb a ha))
    have hl' : l'.filter (Ties s a) = l'.filter (Ties r a) :=
      List.filter_congr fun b hb => decide_eq_decide.mpr (hties b (h.perm.mem_iff.mp hb)).symm
    have hl : l.filter (Ties s a) = l.filter (Ties r a) :=
      List.filter_congr fun b hb => decide_eq_decide.mpr (hties b hb).symm
    rw [hl', hl, h.stable a ha]

theorem perm_sort (l : List α) : (sort r l).Perm l := List.perm_insertionSort _ l

/-- A list that is in order stays as it is. -/
theorem sort_of_ordered {l : List α} (h : l.Pairwise fun a b => ¬r b a) : sort r l = l :=
  h.insertionSort_eq

/-- A sort asks about the elements of its list and no others. -/
theorem sort_congr {s : α → α → Prop} [DecidableRel s] {l : List α}
    (h : ∀ a ∈ l, ∀ b ∈ l, r a b ↔ s a b) : sort r l = sort s l := by
  have hmap := List.map_insertionSort (r := fun a b => ¬r b a) (s := fun a b => ¬s b a) id l
    fun a ha b hb => not_congr (h b hb a ha)
  rwa [List.map_id, List.map_id] at hmap

variable [IsStrictWeakOrder α r]

theorem ordered_sort (l : List α) : (sort r l).Pairwise fun a b => ¬r b a :=
  List.pairwise_insertionSort _ l

theorem sorts_sort (l : List α) : Sorts r l (sort r l) := by
  refine ⟨perm_sort l, ordered_sort l, fun a _ => ?_⟩
  -- the ties of `a` are in order, so the sort keeps them as a sublist
  have hordered : (l.filter (Ties r a)).Pairwise fun b c => ¬r c b := by
    refine List.pairwise_filter.mpr (List.pairwise_of_forall fun b c hb hc => ?_)
    rw [decide_eq_true_eq] at hb hc
    exact (Ties.trans ⟨hc.2, hc.1⟩ hb).1
  have hsub : (l.filter (Ties r a)).Sublist (sort r l) :=
    List.sublist_insertionSort hordered List.filter_sublist
  have hkept := hsub.filter (Ties r a)
  rw [List.filter_filter] at hkept
  simp only [Bool.and_self] at hkept
  exact (hkept.eq_of_length ((perm_sort l).filter _).length_eq.symm).symm

/-- There is one way to sort a list stably. -/
theorem Sorts.unique {l l₁ l₂ : List α} (h₁ : Sorts r l l₁) (h₂ : Sorts r l l₂) : l₁ = l₂ := by
  have hperm := h₁.perm.trans h₂.perm.symm
  have hstable : ∀ a ∈ l₁, l₁.filter (Ties r a) = l₂.filter (Ties r a) := fun a ha =>
    have hmem := h₁.perm.mem_iff.mp ha
    (h₁.stable a hmem).trans (h₂.stable a hmem).symm
  have hordered₁ := h₁.ordered
  have hordered₂ := h₂.ordered
  clear h₁ h₂
  induction l₁ generalizing l₂ with
  | nil => exact (List.nil_perm.mp hperm).symm
  | cons a l₁ ih =>
    cases l₂ with
    | nil => exact absurd hperm.eq_nil (List.cons_ne_nil a l₁)
    | cons b l₂ =>
      rw [List.pairwise_cons] at hordered₁ hordered₂
      -- both heads are least, so they tie, and the first of the ties is the same
      have hab : ¬r b a := by
        cases List.mem_cons.mp (hperm.mem_iff.mpr List.mem_cons_self) with
        | inl heq => exact heq ▸ irrefl_of r b
        | inr hb => exact hordered₁.1 b hb
      have hba : ¬r a b := by
        cases List.mem_cons.mp (hperm.mem_iff.mp List.mem_cons_self) with
        | inl heq => exact heq ▸ irrefl_of r a
        | inr ha => exact hordered₂.1 a ha
      have hheads := hstable a List.mem_cons_self
      have hself := ties_self (r := r) a
      have hother : Ties r a b := ⟨hba, hab⟩
      rw [List.filter_cons_of_pos (by simpa using hself),
        List.filter_cons_of_pos (by simpa using hother)] at hheads
      have heq : a = b := (List.cons.inj hheads).1
      subst heq
      refine congrArg (a :: ·) (ih (hperm.cons_inv) (fun c hc => ?_) hordered₁.2 hordered₂.2)
      have htail := hstable c (List.mem_cons_of_mem a hc)
      by_cases hties : Ties r c a
      · rw [List.filter_cons_of_pos (by simpa using hties),
          List.filter_cons_of_pos (by simpa using hties)] at htail
        exact (List.cons.inj htail).2
      · rwa [List.filter_cons_of_neg (by simpa using hties),
          List.filter_cons_of_neg (by simpa using hties)] at htail

theorem Sorts.eq_sort {l l' : List α} (h : Sorts r l l') : l' = sort r l := h.unique (sorts_sort l)

/-- Two arrangements of a list are sorted to the same list if elements that tie stand in both in
    the same order. -/
theorem sort_eq_sort_iff {l₁ l₂ : List α} (h : l₁.Perm l₂) :
    sort r l₁ = sort r l₂ ↔ ∀ a ∈ l₁, l₁.filter (Ties r a) = l₂.filter (Ties r a) := by
  constructor
  · intro heq a ha
    rw [← (sorts_sort l₁).stable a ha, heq, (sorts_sort l₂).stable a (h.mem_iff.mp ha)]
  · intro hties
    have hsorts : Sorts r l₂ (sort r l₁) := by
      refine ⟨(perm_sort l₁).trans h, ordered_sort l₁, fun a ha => ?_⟩
      have hmem := h.mem_iff.mpr ha
      rw [(sorts_sort l₁).stable a hmem, hties a hmem]
    exact hsorts.eq_sort

/-- An order with `p` in front leaves no element with `p` behind one without. -/
theorem eq_filter_append {p : α → Prop} [DecidablePred p] {l : List α}
    (h : l.Pairwise fun a b => ¬(p b ∧ ¬p a)) :
    l = l.filter p ++ l.filter (fun a => ¬p a) := by
  induction l with
  | nil => rfl
  | cons a l ih =>
    rw [List.pairwise_cons] at h
    by_cases ha : p a
    · rw [List.filter_cons_of_pos (by simpa using ha), List.filter_cons_of_neg (by simpa using ha),
        List.cons_append, ← ih h.2]
    · have hnone : l.filter p = [] := List.filter_eq_nil_iff.mpr fun b hb hpb =>
        h.1 b hb ⟨of_decide_eq_true hpb, ha⟩
      have hall : l.filter (fun a => ¬p a) = l := List.filter_eq_self.mpr fun b hb =>
        decide_eq_true fun hpb => h.1 b hb ⟨hpb, ha⟩
      rw [List.filter_cons_of_neg (by simpa using ha), List.filter_cons_of_pos (by simpa using ha),
        hnone, hall, List.nil_append]

/-- With `p` in front the two groups are sorted each by itself. -/
theorem sort_first (p : α → Prop) [DecidablePred p] (l : List α) :
    sort (First r p) l = sort r (l.filter p) ++ sort r (l.filter fun a => ¬p a) := by
  have hsorts := sorts_sort (r := First r p) l
  have hsplit := eq_filter_append (p := p)
    (hsorts.ordered.imp fun {a b} (h : ¬First r p b a) hba => h (.inl hba))
  have hfront : (sort (First r p) l).filter p = sort r (l.filter p) := by
    refine ((hsorts.filter p).congr fun a ha b hb => ?_).eq_sort
    have ha := of_decide_eq_true (List.mem_filter.mp ha).2
    have hb := of_decide_eq_true (List.mem_filter.mp hb).2
    simp [First, ha, hb]
  have hback : (sort (First r p) l).filter (fun a => ¬p a) = sort r (l.filter fun a => ¬p a) := by
    refine ((hsorts.filter fun a => ¬p a).congr fun a ha b hb => ?_).eq_sort
    have ha := of_decide_eq_true (List.mem_filter.mp ha).2
    have hb := of_decide_eq_true (List.mem_filter.mp hb).2
    simp [First, ha, hb]
  rw [hsplit, hfront, hback]

end sort

end StableSort
