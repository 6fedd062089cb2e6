import Mathlib.Data.List.Pairwise
import Mathlib.Data.List.Perm.Subperm
import Mathlib.Data.List.Sort
import Mathlib.Order.Basic

/-!
# Sorted rows, page by page

- `sortBy f l`: the rows of a table in the order of `f`. A row is among the first `n` when
  less than `n` rows come before it (`mem_take_sortBy_iff`).
- `Reads fetch key i t l`: a client that fetches page after page, with the key of the last
  row as the next cursor and until a page is empty, has read the rows `l`.
- `CleanCuts n ks`: no two neighbours in `ks` are equal where a page of `n` ends.

A page holds the first `n` rows below the cursor, with descending keys and with equal keys
in any order. `exists_reads` says that the client comes to an end, and that it has read all
rows exactly when no run of equal keys goes over the end of a page.
-/

namespace Paging

universe u v w

variable {α : Type u} {κ : Type v} {ε : Type w}

/-! ## The first rows -/

section Order

variable [LinearOrder κ]

/-- The rows in the order of `f`. -/
def sortBy (f : α → κ) (l : List α) : List α := l.insertionSort fun a b => f a ≤ f b

theorem sortBy_perm (f : α → κ) (l : List α) : (sortBy f l).Perm l :=
  List.perm_insertionSort _ l

theorem sortBy_pairwise (f : α → κ) (l : List α) :
    (sortBy f l).Pairwise fun a b => f a ≤ f b := by
  have : Std.Total fun a b : α => f a ≤ f b := ⟨fun a b => le_total (f a) (f b)⟩
  have : IsTrans α fun a b => f a ≤ f b := ⟨fun _ _ _ => le_trans⟩
  exact List.pairwise_insertionSort _ l

/-- In a sorted list, the place of an element is the number of smaller ones. -/
theorem mem_take_iff_countP {f : α → κ} {l : List α} (h : l.Pairwise fun a b => f a < f b)
    {x : α} (hx : x ∈ l) {n : ℕ} : x ∈ l.take n ↔ l.countP (fun y => f y < f x) < n := by
  induction l generalizing n with
  | nil => exact absurd hx List.not_mem_nil
  | cons a l ih =>
    obtain ⟨hlt, hl⟩ := List.pairwise_cons.mp h
    cases n with
    | zero => exact iff_of_false List.not_mem_nil (Nat.not_lt_zero _)
    | succ n =>
      rw [List.take_succ_cons, List.mem_cons, List.countP_cons]
      rcases List.mem_cons.mp hx with rfl | hx
      · -- nothing comes before the first row
        have hzero : l.countP (fun y => f y < f x) = 0 :=
          List.countP_eq_zero.mpr fun y hy => by simpa using (hlt y hy).le
        simp [hzero]
      · have hne : x ≠ a := fun he => (hlt x hx).ne (congrArg f he.symm)
        rw [or_iff_right hne, ih hl hx, if_pos (by simpa using hlt x hx), Nat.add_lt_add_iff_right]

/-- A row is among the first `n` when less than `n` rows come before it. -/
theorem mem_take_sortBy_iff {f : α → κ} {l : List α} (hinj : (l.map f).Nodup) {x : α}
    (hx : x ∈ l) {n : ℕ} :
    x ∈ (sortBy f l).take n ↔ l.countP (fun y => f y < f x) < n := by
  have hperm := sortBy_perm f l
  have hne : (sortBy f l).Pairwise fun a b => f a ≠ f b :=
    List.pairwise_map.mp ((hperm.map f).nodup_iff.mpr hinj)
  have hlt : (sortBy f l).Pairwise fun a b => f a < f b :=
    (sortBy_pairwise f l).imp₂ (fun _ _ => lt_of_le_of_ne) hne
  rw [mem_take_iff_countP hlt (hperm.mem_iff.mpr hx), hperm.countP_eq]

end Order

/-! ## Pages -/

/-- From the `i`-th page on, with the cursor `t`, the client reads `l`. -/
inductive Reads (fetch : ℕ → κ → Except ε (List α)) (key : α → κ) : ℕ → κ → List α → Prop where
  | done {i : ℕ} {t : κ} (h : fetch i t = .ok []) : Reads fetch key i t []
  | more {i : ℕ} {t : κ} {page later : List α} (h : fetch i t = .ok page) (hne : page ≠ [])
      (hlater : Reads fetch key (i + 1) (key (page.getLast hne)) later) :
      Reads fetch key i t (page ++ later)

/-- Neighbours differ where a page of `n` ends. -/
def CleanCuts (n : ℕ) (ks : List κ) : Prop :=
  ∀ k a b, ks[(k + 1) * n - 1]? = some a → ks[(k + 1) * n]? = some b → a ≠ b

theorem cleanCuts_nil (n : ℕ) : CleanCuts n ([] : List κ) :=
  fun _ _ _ h => nomatch h

/-- The first cut, and the cuts of the rest. -/
theorem cleanCuts_iff_drop {n : ℕ} (hn : 0 < n) {ks : List κ} : CleanCuts n ks ↔
    (∀ a b, ks[n - 1]? = some a → ks[n]? = some b → a ≠ b) ∧ CleanCuts n (ks.drop n) := by
  have hdrop (k : ℕ) : (ks.drop n)[(k + 1) * n - 1]? = ks[(k + 1 + 1) * n - 1]? ∧
      (ks.drop n)[(k + 1) * n]? = ks[(k + 1 + 1) * n]? := by
    have hpos : 0 < (k + 1) * n := Nat.mul_pos k.succ_pos hn
    have hmul : (k + 1 + 1) * n = n + (k + 1) * n := by rw [Nat.succ_mul, Nat.add_comm]
    rw [List.getElem?_drop, List.getElem?_drop, hmul, Nat.add_sub_assoc hpos]
    exact ⟨rfl, rfl⟩
  constructor
  · intro h
    have hfirst := h 0
    rw [Nat.zero_add, Nat.one_mul] at hfirst
    refine ⟨hfirst, ?_⟩
    intro k a b ha hb
    exact h (k + 1) a b ((hdrop k).1 ▸ ha) ((hdrop k).2 ▸ hb)
  · rintro ⟨hfirst, hrest⟩ k a b ha hb
    cases k with
    | zero =>
      rw [Nat.zero_add, Nat.one_mul] at ha hb
      exact hfirst a b ha hb
    | succ k => exact hrest k a b ((hdrop k).1.trans ha) ((hdrop k).2.trans hb)

section Reads

variable {fetch : ℕ → κ → Except ε (List α)} {key : α → κ} {i : ℕ} {t : κ} {l : List α}

/-- The client reads one thing. -/
theorem Reads.unique (h : Reads fetch key i t l) {l' : List α} (h' : Reads fetch key i t l') :
    l = l' := by
  induction h generalizing l' with
  | done hfetch =>
    cases h' with
    | done => rfl
    | more hfetch' hne => exact absurd (Except.ok.inj (hfetch'.symm.trans hfetch)) hne
  | @more i t page later hfetch hne hlater ih =>
    cases h' with
    | done hfetch' => exact absurd (Except.ok.inj (hfetch.symm.trans hfetch')) hne
    | @more _ _ page' later' hfetch' hne' hlater' =>
      obtain rfl : page = page' := Except.ok.inj (hfetch.symm.trans hfetch')
      rw [ih hlater']

/-- The same pages in another form. -/
theorem Reads.map {β : Type*} {fetch' : ℕ → κ → Except ε (List β)} {key' : β → κ} {g : α → β}
    (hfetch : ∀ i t page, fetch i t = .ok page → fetch' i t = .ok (page.map g))
    (hkey : ∀ i t page, fetch i t = .ok page → ∀ x ∈ page, key' (g x) = key x)
    (h : Reads fetch key i t l) : Reads fetch' key' i t (l.map g) := by
  induction h with
  | done h => exact .done (hfetch _ _ _ h)
  | @more i t page later h hne hlater ih =>
    have hne' : page.map g ≠ [] := fun he => hne (List.map_eq_nil_iff.mp he)
    rw [List.map_append]
    refine .more (hfetch _ _ _ h) hne' ?_
    rwa [List.getLast_map, hkey _ _ _ h _ (List.getLast_mem hne)]

end Reads

section Select

variable [LinearOrder κ] {key : α → κ} {rows : List α} {select : ℕ → κ → List α} {n i : ℕ} {t : κ}

/-- The rows below the cursor, with descending keys. -/
structure Selects (key : α → κ) (rows : List α) (select : ℕ → κ → List α) : Prop where
  perm : ∀ i t, (select i t).Perm (rows.filter fun r => key r < t)
  sorted : ∀ i t, (select i t).Pairwise fun a b => key b ≤ key a

/-- The next selection is what is left below the last key. -/
theorem Selects.next (hs : Selects key rows select) (hne : (select i t).take n ≠ []) :
    (select (i + 1) (key (((select i t).take n).getLast hne))).Perm
      (((select i t).drop n).filter fun r => key r < key (((select i t).take n).getLast hne)) := by
  have hlast := List.getLast_mem hne
  generalize hc : key (((select i t).take n).getLast hne) = c
  have hct : c < t := by
    have hmem := (hs.perm i t).mem_iff.mp (List.mem_of_mem_take hlast)
    simpa [hc] using (List.mem_filter.mp hmem).2
  -- nothing on the page is below the last key
  have hpage : ((select i t).take n).filter (fun r => key r < c) = [] := by
    refine List.filter_eq_nil_iff.mpr fun r hr => ?_
    have hsorted := (hs.sorted i t).sublist (List.take_sublist n _)
    have hle : c ≤ key r := hc ▸ hsorted.rel_getLast_of_rel_getLast_getLast hr le_rfl
    simpa using hle
  have hbelow : (select i t).filter (fun r => key r < c) =
      ((select i t).drop n).filter fun r => key r < c := by
    conv_lhs => rw [← List.take_append_drop n (select i t), List.filter_append, hpage]
    rfl
  rw [← hbelow]
  refine (hs.perm (i + 1) c).trans (.trans (.of_eq ?_) ((hs.perm i t).filter _).symm)
  rw [List.filter_filter]
  refine List.filter_congr fun r _ => ?_
  rw [Bool.eq_iff_iff]
  simpa using fun h => h.trans hct

/-- The page is cut clean when all that is left is below its last key. -/
theorem cut_iff {l : List α} (hl : l.Pairwise fun a b => key b ≤ key a) (hne : l.take n ≠ []) :
    (∀ a b, (l.map key)[n - 1]? = some a → (l.map key)[n]? = some b → a ≠ b) ↔
      ∀ r ∈ l.drop n, key r < key ((l.take n).getLast hne) := by
  obtain ⟨-, hrest, hcross⟩ := List.pairwise_append.mp ((List.take_append_drop n l).symm ▸ hl)
  cases hd : l.drop n with
  | nil =>
    have hshort : l.length ≤ n := List.drop_eq_nil_iff.mp hd
    refine iff_of_true (fun a b _ hb => ?_) fun r hr => absurd hr List.not_mem_nil
    rw [List.getElem?_eq_none (by rwa [List.length_map])] at hb
    cases hb
  | cons b rest =>
    have hlong : n < l.length := by
      by_contra hle
      rw [List.drop_eq_nil_iff.mpr (Nat.le_of_not_lt hle)] at hd
      cases hd
    have hpage : (l.take n).length = n := List.length_take_of_le hlong.le
    have hlast : (l.map key)[n - 1]? = some (key ((l.take n).getLast hne)) := by
      have hpos : n - 1 < n := by
        have := List.length_pos_of_ne_nil hne
        omega
      have hget : (l.take n).getLast? = (l.take n)[n - 1]? := by
        rw [List.getLast?_eq_getElem?, hpage]
      rw [List.getElem?_map, ← List.getElem?_take_of_lt hpos, ← hget,
        List.getLast?_eq_getLast_of_ne_nil hne, Option.map_some]
    have hhead : (l.map key)[n]? = some (key b) := by
      have h0 : (l.drop n)[0]? = l[n]? := by rw [List.getElem?_drop, Nat.add_zero]
      rw [List.getElem?_map, ← h0, hd]
      rfl
    rw [hlast, hhead]
    have hle := hcross _ (List.getLast_mem hne) b (hd ▸ List.mem_cons_self)
    constructor
    · intro hcut r hr
      have hb : key b < key ((l.take n).getLast hne) :=
        lt_of_le_of_ne hle (hcut _ _ rfl rfl).symm
      rcases List.mem_cons.mp hr with rfl | hr
      · exact hb
      · rw [hd] at hrest
        exact (List.rel_of_pairwise_cons hrest hr).trans_lt hb
    · rintro hbelow a b' ha hb rfl
      obtain rfl := Option.some.inj ha
      have hlt := hbelow b List.mem_cons_self
      rw [Option.some.inj hb] at hlt
      exact lt_irrefl _ hlt

/-- The keys of two selections of the same rows. -/
theorem map_key_eq {l l' : List α} (hl : l.Pairwise fun a b => key b ≤ key a)
    (hl' : l'.Pairwise fun a b => key b ≤ key a) (hperm : l.Perm l') : l.map key = l'.map key :=
  (hperm.map key).eq_of_pairwise (fun _ _ _ _ h h' => le_antisymm h' h)
    (List.pairwise_map.mpr hl) (List.pairwise_map.mpr hl')

/-- **Paging.** The client comes to an end, and it has read all rows exactly when no run of
equal keys goes over the end of a page. -/
theorem exists_reads (ε : Type*) (hn : 0 < n) (hs : Selects key rows select) (i : ℕ) (t : κ) :
    ∃ l, Reads (fun i t => (.ok ((select i t).take n) : Except ε (List α))) key i t l ∧
      l.Subperm (select i t) ∧
      (l.Perm (select i t) ↔ CleanCuts n ((select i t).map key)) := by
  induction hlen : (select i t).length using Nat.strong_induction_on generalizing i t with
  | _ m ih =>
    by_cases hnil : select i t = []
    · refine ⟨[], .done (by rw [hnil, List.take_nil]), List.nil_subperm, ?_⟩
      rw [hnil]
      exact iff_of_true (.refl _) (cleanCuts_nil n)
    have hne : (select i t).take n ≠ [] := by
      rw [ne_eq, List.take_eq_nil_iff]
      exact not_or.mpr ⟨hn.ne', hnil⟩
    have hnext := hs.next hne
    have hcut := cut_iff (hs.sorted i t) hne
    have hsplit : (select i t).take n ++ (select i t).drop n = select i t :=
      List.take_append_drop n _
    generalize hc : key (((select i t).take n).getLast hne) = c at hnext hcut
    have hleft : (select (i + 1) c).Subperm ((select i t).drop n) :=
      hnext.subperm.trans List.filter_sublist.subperm
    have hlt : (select (i + 1) c).length < m := by
      refine hleft.length_le.trans_lt ?_
      rw [List.length_drop, hlen]
      have := List.length_pos_of_ne_nil hnil
      omega
    obtain ⟨later, hreads, hsub, hiff⟩ := ih _ hlt (i + 1) c rfl
    refine ⟨_, .more rfl hne (hc ▸ hreads), ?_, ?_⟩
    · nth_rewrite 2 [← hsplit]
      exact (List.subperm_append_left _).mpr (hsub.trans hleft)
    · have happend : ((select i t).take n ++ later).Perm (select i t) ↔
          later.Perm ((select i t).drop n) := by
        nth_rewrite 2 [← hsplit]
        exact List.perm_append_left_iff _
      rw [happend, cleanCuts_iff_drop hn, hcut, ← List.map_drop]
      by_cases hbelow : ∀ r ∈ (select i t).drop n, key r < c
      · -- the next selection is all that is left
        rw [List.filter_eq_self.mpr fun r hr => by simpa using hbelow r hr] at hnext
        have hrest := (hs.sorted i t).sublist (List.drop_sublist n _)
        rw [← map_key_eq (hs.sorted (i + 1) c) hrest hnext, ← hiff, and_iff_right hbelow]
        exact ⟨fun h => h.trans hnext.symm, fun h => h.trans hnext⟩
      · refine iff_of_false (fun hperm => hbelow fun r hr => ?_) fun h => hbelow h.1
        -- a row that is left is never selected
        have hmem := hnext.mem_iff.mp (hsub.subset (hperm.mem_iff.mpr hr))
        simpa using (List.mem_filter.mp hmem).2

end Select

end Paging
