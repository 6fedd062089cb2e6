import Mathlib.Algebra.BigOperators.Group.List.Basic
import Mathlib.Data.List.Perm.Basic
import Mathlib.Data.List.Sort
import Mathlib.Data.Multiset.Basic

/-!
# Searching, in-place updates and unspecified iteration orders

- `findIf p l`: `std::find_if` over a list, giving the position of the first hit
  together with the element there;
- `sum_map_modify`: a sum over a list after one element is modified in place;
- `cons_coe_eraseIdx`, `cons_coe_set`: a list as a multiset after one position is
  erased or overwritten;
- `filter_flatMap_of_key`: a list that has been made of one list for each key;
- `hashOrder rank key l`: the elements of an unordered container in one of its
  possible iteration orders. Which order a container has is not specified, and
  `rank` stands for it.
-/

namespace FindIf

universe u v

variable {α : Type u} {β : Type v}

/-- Position and value of the first element that satisfies `p`. -/
def findIf (p : α → Bool) : List α → Option (Nat × α)
  | [] => none
  | a :: l => if p a then some (0, a) else (findIf p l).map fun r => (r.1 + 1, r.2)

/-- What is found is at its place, and has the property. -/
theorem findIf_eq_some {p : α → Bool} {l : List α} {i : Nat} {a : α} :
    findIf p l = some (i, a) → l[i]? = some a ∧ p a = true := by
  induction l generalizing i with
  | nil =>
    intro h
    cases h
  | cons b l ih =>
    intro h
    by_cases hb : p b
    · simp only [findIf, hb, if_true, Option.some.injEq, Prod.mk.injEq] at h
      obtain ⟨rfl, rfl⟩ := h
      exact ⟨rfl, hb⟩
    · simp only [findIf, hb, Bool.false_eq_true, if_false, Option.map_eq_some_iff] at h
      obtain ⟨⟨j, c⟩, hj, he⟩ := h
      obtain ⟨rfl, rfl⟩ := Prod.mk.inj he
      exact ih hj

/-- Nothing is found when nothing has the property. -/
theorem findIf_eq_none {p : α → Bool} {l : List α} :
    findIf p l = none ↔ ∀ a ∈ l, p a = false := by
  induction l with
  | nil => simp [findIf]
  | cons b l ih =>
    by_cases hb : p b
    · simp [findIf, hb]
    · simp [findIf, hb, ih]

theorem findIf_mem {p : α → Bool} {l : List α} {i : Nat} {a : α}
    (h : findIf p l = some (i, a)) : a ∈ l :=
  List.mem_of_getElem? (findIf_eq_some h).1

theorem findIf_lt {p : α → Bool} {l : List α} {i : Nat} {a : α}
    (h : findIf p l = some (i, a)) : i < l.length :=
  (List.getElem?_eq_some_iff.mp (findIf_eq_some h).1).1

/-- Some element satisfies `p`, so the search hits. -/
theorem exists_findIf {p : α → Bool} {l : List α} {a : α} (ha : a ∈ l) (hp : p a = true) :
    ∃ i b, findIf p l = some (i, b) := by
  cases h : findIf p l with
  | none =>
    have := findIf_eq_none.mp h a ha
    rw [hp] at this
    cases this
  | some r => exact ⟨r.1, r.2, rfl⟩

/-! ## In-place updates -/

/-- A modified element changes a sum by its own summand. -/
theorem sum_map_modify {M : Type v} [AddCommMonoid M] {f : α → M} {g : α → α} {l : List α}
    {i : Nat} {a : α} (h : l[i]? = some a) :
    ((l.modify i g).map f).sum + f a = (l.map f).sum + f (g a) := by
  induction l generalizing i with
  | nil => cases h
  | cons b l ih =>
    cases i with
    | zero =>
      obtain rfl : b = a := Option.some.inj h
      simp only [List.modify_zero_cons, List.map_cons, List.sum_cons]
      rw [add_right_comm, add_comm (f (g b)), add_right_comm]
    | succ i =>
      have hrest := ih (i := i) (by simpa using h)
      simp only [List.modify_succ_cons, List.map_cons, List.sum_cons, add_assoc, hrest]

/-- An update that leaves the summand alone leaves the sum alone. -/
theorem map_modify_of_eq {f : α → β} {g : α → α} (hg : ∀ a, f (g a) = f a) (l : List α)
    (i : Nat) : (l.modify i g).map f = l.map f := by
  apply List.ext_getElem?
  intro j
  rw [List.getElem?_map, List.getElem?_map, List.getElem?_modify]
  cases l[j]? with
  | none => rfl
  | some a => by_cases hij : i = j <;> simp [hij, hg]

/-- An overwritten element with the same value leaves the values alone. -/
theorem map_set_of_eq {f : α → β} {l : List α} {i : Nat} {a b : α} (h : l[i]? = some a)
    (hf : f b = f a) : (l.set i b).map f = l.map f := by
  obtain ⟨hi, rfl⟩ := List.getElem?_eq_some_iff.mp h
  have hi' : i < (l.map f).length := by rwa [List.length_map]
  rw [List.map_set, hf, ← List.getElem_map f (h := hi'), List.set_getElem_self]

/-- Erasing a position takes one copy out of the multiset. -/
theorem cons_coe_eraseIdx {l : List α} {i : Nat} {a : α} (h : l[i]? = some a) :
    a ::ₘ (l.eraseIdx i : Multiset α) = l := by
  obtain ⟨hi, rfl⟩ := List.getElem?_eq_some_iff.mp h
  exact Multiset.coe_eq_coe.mpr (List.getElem_cons_eraseIdx_perm hi)

/-- Overwriting a position exchanges one copy for another. -/
theorem cons_coe_set {l : List α} {i : Nat} {a : α} (h : l[i]? = some a) (b : α) :
    a ::ₘ (l.set i b : Multiset α) = b ::ₘ (l : Multiset α) := by
  obtain ⟨hi, rfl⟩ := List.getElem?_eq_some_iff.mp h
  rw [Multiset.coe_eq_coe.mpr (List.set_perm_cons_eraseIdx hi b), ← Multiset.cons_coe,
    Multiset.cons_swap, cons_coe_eraseIdx h]

/-! ## Lists by keys -/

/-- Of lists that belong to different keys, those of one key are one list. -/
theorem filter_flatMap_of_key [DecidableEq β] {key : α → β} {g : β → List α}
    (hkey : ∀ k, ∀ x ∈ g k, key x = k) (k : β) {ks : List β} (hks : ks.Nodup) :
    (ks.flatMap g).filter (fun x => key x = k) = if k ∈ ks then g k else [] := by
  induction ks with
  | nil => rfl
  | cons k' ks ih =>
    obtain ⟨hnot, hrest⟩ := List.nodup_cons.mp hks
    rw [List.flatMap_cons, List.filter_append, ih hrest]
    by_cases hk : k = k'
    · obtain rfl := hk
      rw [if_neg hnot, if_pos List.mem_cons_self, List.append_nil, List.filter_eq_self]
      exact fun x hx => decide_eq_true (hkey k x hx)
    · have hnone : (g k').filter (fun x => key x = k) = [] := by
        refine List.filter_eq_nil_iff.mpr fun x hx he => hk ?_
        exact (of_decide_eq_true he).symm.trans (hkey k' x hx)
      simp only [hnone, List.nil_append, List.mem_cons, hk, false_or]

/-! ## Iteration orders -/

/-- The iteration order of an unordered container that ranks its keys by
`rank`. -/
def hashOrder (rank : β → Nat) (key : α → β) (l : List α) : List α :=
  l.insertionSort fun a b => rank (key a) ≤ rank (key b)

theorem hashOrder_perm (rank : β → Nat) (key : α → β) (l : List α) :
    (hashOrder rank key l).Perm l :=
  List.perm_insertionSort _ l

end FindIf
