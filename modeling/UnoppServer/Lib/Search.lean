import Mathlib.Data.List.Infix
import Mathlib.Data.List.TakeWhile
import Mathlib.Data.Nat.Find

/-!
# The first occurrence of a pattern

`find` is the position of the first occurrence of a pattern in a text, and `tokenAfter` what
follows it, as long as a predicate holds. The text before and after the occurrence is
`List.dropInfix?`.

A pattern without the separator lies on one side of it (`append_cons_eq_iff`). So the first
occurrence in a text that is made of segments is that of the first segment that has one
(`tokenAfter_intercalate`).
-/

namespace Search

universe u

variable {α : Type u} {p : α → Bool} {pattern s t pre post token : List α} {sep : α}

/-- The first occurrence of the pattern stands between `pre` and `post`. -/
def First (pattern s pre post : List α) : Prop :=
  s = pre ++ pattern ++ post ∧
    ∀ pre' post', s = pre' ++ pattern ++ post' → pre.length ≤ pre'.length

/-- The position of the first occurrence of the pattern. -/
def find [BEq α] (pattern s : List α) : Option Nat := (s.dropInfix? pattern).map fun r => r.1.length

/-- What comes after the first occurrence of the pattern, as long as `p` holds. -/
def tokenAfter [BEq α] (p : α → Bool) (pattern s : List α) : Option (List α) :=
  (s.dropInfix? pattern).map fun r => r.2.takeWhile p

/-- A pattern without the separator lies on one side of it. -/
theorem append_cons_eq_iff (hsep : sep ∉ pattern) : s ++ sep :: t = pre ++ pattern ++ post ↔
    (∃ post', s = pre ++ pattern ++ post' ∧ post = post' ++ sep :: t) ∨
      ∃ pre', t = pre' ++ pattern ++ post ∧ pre = s ++ sep :: pre' := by
  constructor
  · intro h
    rw [List.append_assoc] at h
    rcases List.append_eq_append_iff.mp h with ⟨l, hpre, hl⟩ | ⟨l, hs, hl⟩
    · cases l with
      | nil =>
        -- the pattern would begin with the separator
        cases pattern with
        | nil => exact .inl ⟨[], by simpa using hpre.symm, by simpa using hl.symm⟩
        | cons a pattern =>
          obtain ⟨rfl, -⟩ := List.cons.inj hl
          exact absurd List.mem_cons_self hsep
      | cons a l =>
        obtain ⟨rfl, ht⟩ := List.cons.inj hl
        exact .inr ⟨l, ht.trans (List.append_assoc ..).symm, hpre⟩
    · rcases List.append_eq_append_iff.mp hl with ⟨l', hl', hpost⟩ | ⟨l', hpattern, hl'⟩
      · exact .inl ⟨l', by rw [hs, hl', List.append_assoc], hpost⟩
      · cases l' with
        | nil =>
          rw [List.append_nil] at hpattern
          exact .inl ⟨[], by rw [hs, hpattern, List.append_nil], hl'.symm⟩
        | cons a l' =>
          obtain ⟨rfl, -⟩ := List.cons.inj hl'
          exact absurd (hpattern ▸ List.mem_append_right _ List.mem_cons_self) hsep
  · rintro (⟨post', rfl, rfl⟩ | ⟨pre', rfl, rfl⟩)
    · simp
    · simp

variable [BEq α] [LawfulBEq α]

theorem dropInfix?_eq_some_iff :
    s.dropInfix? pattern = some (pre, post) ↔ First pattern s pre post := by
  rw [List.dropInfix?_eq_some_iff]
  simp only [beq_iff_eq, exists_eq_right, ge_iff_le]
  refine and_congr_right fun _ => ⟨fun h pre' post' he => h pre' pattern post' he rfl, ?_⟩
  rintro h pre' _ post' he rfl
  exact h pre' post' he

/-- Nothing is dropped when the pattern is not in the text. -/
theorem dropInfix?_eq_none_iff : s.dropInfix? pattern = none ↔ ¬ pattern <:+: s := by
  classical
  constructor
  · rintro hnone ⟨pre, post, he⟩
    -- among the occurrences there is a first one
    have hex : ∃ n pre post, pre.length = n ∧ s = pre ++ pattern ++ post :=
      ⟨_, pre, post, rfl, he.symm⟩
    obtain ⟨pre₁, post₁, hlen, he₁⟩ := Nat.find_spec hex
    have hsome : s.dropInfix? pattern = some (pre₁, post₁) :=
      dropInfix?_eq_some_iff.mpr
        ⟨he₁, fun pre' post' he' => hlen ▸ Nat.find_min' hex ⟨pre', post', rfl, he'⟩⟩
    exact nomatch hnone.symm.trans hsome
  · intro hno
    cases hdrop : s.dropInfix? pattern with
    | none => rfl
    | some r => exact absurd ⟨r.1, r.2, (dropInfix?_eq_some_iff.mp hdrop).1.symm⟩ hno

/-- The first occurrence in two parts is that of the first part, or else that of the second. -/
theorem dropInfix?_append_cons (hsep : sep ∉ pattern) : (s ++ sep :: t).dropInfix? pattern =
    ((s.dropInfix? pattern).map fun r => (r.1, r.2 ++ sep :: t)).or
      ((t.dropInfix? pattern).map fun r => (s ++ sep :: r.1, r.2)) := by
  cases hs : s.dropInfix? pattern with
  | some r =>
    obtain ⟨he, hfirst⟩ := dropInfix?_eq_some_iff.mp hs
    refine dropInfix?_eq_some_iff.mpr
      ⟨(append_cons_eq_iff hsep).mpr (.inl ⟨r.2, he, rfl⟩), fun pre' post' he' => ?_⟩
    rcases (append_cons_eq_iff hsep).mp he' with ⟨post₁, hs', -⟩ | ⟨pre₁, -, rfl⟩
    · exact hfirst pre' post₁ hs'
    · have hlen := congrArg List.length he
      simp only [List.length_append, List.length_cons] at hlen ⊢
      omega
  | none =>
    have hno := dropInfix?_eq_none_iff.mp hs
    cases ht : t.dropInfix? pattern with
    | some r =>
      obtain ⟨he, hfirst⟩ := dropInfix?_eq_some_iff.mp ht
      refine dropInfix?_eq_some_iff.mpr
        ⟨(append_cons_eq_iff hsep).mpr (.inr ⟨r.1, he, rfl⟩), fun pre' post' he' => ?_⟩
      rcases (append_cons_eq_iff hsep).mp he' with ⟨post₁, hs', -⟩ | ⟨pre₁, ht', rfl⟩
      · exact absurd ⟨pre', post₁, hs'.symm⟩ hno
      · have hle := hfirst pre₁ post' ht'
        simp only [List.length_append, List.length_cons]
        omega
    | none =>
      refine dropInfix?_eq_none_iff.mpr fun ⟨pre', post', he'⟩ => ?_
      rcases (append_cons_eq_iff hsep).mp he'.symm with ⟨post₁, hs', -⟩ | ⟨pre₁, ht', -⟩
      · exact hno ⟨pre', post₁, hs'.symm⟩
      · exact dropInfix?_eq_none_iff.mp ht ⟨pre₁, post', ht'.symm⟩

/-- What follows the first occurrence does not go on past a separator. -/
theorem tokenAfter_append_cons (hsep : sep ∉ pattern) (hp : p sep = false) :
    tokenAfter p pattern (s ++ sep :: t) =
      (tokenAfter p pattern s).or (tokenAfter p pattern t) := by
  have htake (l : List α) : (l ++ sep :: t).takeWhile p = l.takeWhile p := by
    rw [List.takeWhile_append, List.takeWhile_cons, hp]
    simp only [Bool.false_eq_true, if_false, List.append_nil, ite_eq_right_iff]
    exact fun h => ((List.takeWhile_prefix p).eq_of_length h).symm
  unfold tokenAfter
  rw [dropInfix?_append_cons hsep]
  cases s.dropInfix? pattern with
  | none =>
    cases t.dropInfix? pattern with
    | none => rfl
    | some r => rfl
  | some r => exact congrArg some (htake r.2)

theorem tokenAfter_eq_none_iff : tokenAfter p pattern s = none ↔ ¬ pattern <:+: s := by
  rw [tokenAfter, Option.map_eq_none_iff, dropInfix?_eq_none_iff]

/-- The token, and what ends it. -/
theorem tokenAfter_eq_some_iff : tokenAfter p pattern s = some token ↔ ∃ pre rest,
    First pattern s pre (token ++ rest) ∧ (∀ a ∈ token, p a) ∧ ∀ a ∈ rest.head?, ¬ p a := by
  rw [tokenAfter, Option.map_eq_some_iff, Prod.exists]
  simp only [dropInfix?_eq_some_iff]
  constructor
  · rintro ⟨pre, post, hfirst, rfl⟩
    refine ⟨pre, post.dropWhile p, by rwa [List.takeWhile_append_dropWhile],
      fun a ha => List.mem_takeWhile_imp ha, fun a ha => ?_⟩
    have hnot := List.head?_dropWhile_not p post
    rw [Option.mem_def.mp ha] at hnot
    exact Bool.eq_false_iff.mp hnot
  · rintro ⟨pre, rest, hfirst, htoken, hrest⟩
    refine ⟨pre, token ++ rest, hfirst, ?_⟩
    rw [List.takeWhile_append_of_pos htoken]
    cases rest with
    | nil => exact List.append_nil token
    | cons a rest =>
      rw [List.takeWhile_cons_of_neg (hrest a rfl), List.append_nil]

theorem tokenAfter_nil (hpattern : pattern ≠ []) : tokenAfter p pattern ([] : List α) = none :=
  tokenAfter_eq_none_iff.mpr fun h => hpattern (List.infix_nil.mp h)

/-- Several separators stand between empty segments. -/
theorem tokenAfter_append_append {l : List α} (hpattern : pattern ≠ []) (hne : l ≠ [])
    (hl : ∀ a ∈ l, a ∉ pattern ∧ p a = false) : tokenAfter p pattern (s ++ l ++ t) =
      (tokenAfter p pattern s).or (tokenAfter p pattern t) := by
  induction l generalizing s with
  | nil => exact absurd rfl hne
  | cons a l ih =>
    obtain ⟨ha, hpa⟩ := hl a List.mem_cons_self
    rw [List.append_assoc, List.cons_append, tokenAfter_append_cons ha hpa]
    cases l with
    | nil => rfl
    | cons b l =>
      have hrest : tokenAfter p pattern ([] ++ b :: l ++ t) = _ :=
        ih (List.cons_ne_nil b l) fun c hc => hl c (List.mem_cons_of_mem a hc)
      rw [tokenAfter_nil hpattern, Option.none_or, List.nil_append] at hrest
      rw [hrest]

/-- **Segments.** In a text of segments it is the first segment with the pattern that counts. -/
theorem tokenAfter_intercalate {l : List α} (hpattern : pattern ≠ []) (hne : l ≠ [])
    (hl : ∀ a ∈ l, a ∉ pattern ∧ p a = false) (segments : List (List α)) :
    tokenAfter p pattern (l.intercalate segments) = segments.findSome? (tokenAfter p pattern) := by
  have hcons (s : List α) (segments : List (List α)) :
      (s :: segments).findSome? (tokenAfter p pattern) =
        (tokenAfter p pattern s).or (segments.findSome? (tokenAfter p pattern)) := by
    rw [List.findSome?_cons]
    cases tokenAfter p pattern s <;> rfl
  induction segments with
  | nil => exact tokenAfter_nil hpattern
  | cons s segments ih =>
    cases segments with
    | nil => rw [List.intercalate_singleton, hcons, List.findSome?_nil, Option.or_none]
    | cons s' segments =>
      rw [List.intercalate_cons_cons, tokenAfter_append_append hpattern hne hl, ih, hcons s]

/-- The token is found by its position. -/
theorem find_eq (p : α → Bool) (pattern s : List α) :
    (find pattern s).map (fun i => (s.drop (i + pattern.length)).takeWhile p) =
      tokenAfter p pattern s := by
  unfold find tokenAfter
  cases hs : s.dropInfix? pattern with
  | none => rfl
  | some r =>
    have hdrop : s.drop (r.1.length + pattern.length) = r.2 := by
      rw [(dropInfix?_eq_some_iff.mp hs).1, ← List.length_append]
      exact List.drop_left
    exact congrArg (fun l => some (List.takeWhile p l)) hdrop

end Search
