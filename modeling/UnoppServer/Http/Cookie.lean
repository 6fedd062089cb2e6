import Mathlib.Algebra.Group.Nat.Defs
import UnoppServer.Lib.Search

/-!
# The session of a request

The handlers of `HttpServer` take the session from the header `Cookie`. `parse_cookie` does
not split the header into its pairs: it looks for the first `sessdata=` anywhere in it and
reads the digits that follow.

- `tokenAfter_cookieHeader`: it is the first pair with the marker that counts;
- `exact_iff`: exactly when this is the session, and no other pair is one;
- `parseCookie_login`: the pairs that `/login` sets, in any order.
-/

namespace UnoppServer

namespace HttpServer

/-! ## The code -/

/-- `std::atoll` of digits. What is too large for 64 bits is the largest number. -/
def atoll (digits : List Char) : Nat := min (Nat.ofDigitChars 10 digits 0) (2 ^ 63 - 1)

/-- `parse_cookie`: the session, and whether it has failed. -/
def parseCookie (cookie : String) : Nat × Bool :=
  match Search.find "sessdata=".toList cookie.toList with
  | none => (0, true)
  | some pos =>
    let pos := pos + 9
    -- the zero behind the last character is no digit
    let cnt := ((cookie.toList.drop pos).takeWhile Char.isDigit).length
    -- narrowed from `long long` to `unsigned int`
    (atoll ((cookie.toList.drop pos).take cnt) % 2 ^ 32, false)

/-- The header that consists of the pairs. -/
def cookieHeader (pairs : List (String × String)) : String :=
  "; ".intercalate (pairs.map fun p => p.1 ++ "=" ++ p.2)

/-- The pairs that `/login` sets. -/
def loginCookies (sessdata : Nat) (userName : String) (id : Int) : List (String × String) :=
  [("sessdata", toString sessdata), ("user_name", userName), ("id", toString id)]

/-! ## The session among the pairs -/

/-- A pair is the session `n`. -/
def HasSession (pairs : List (String × String)) (n : Nat) : Prop :=
  n < 2 ^ 32 ∧ ("sessdata", toString n) ∈ pairs

/-- The session is read from the pairs that have one, and from no others. -/
structure Exact (pairs : List (String × String)) : Prop where
  returns : ∀ n, parseCookie (cookieHeader pairs) = (n, false) ↔ HasSession pairs n
  fails : (∀ n, ¬ HasSession pairs n) → (parseCookie (cookieHeader pairs)).2 = true

/-- The marker is nowhere in the pair. -/
def Unmarked (p : String × String) : Prop :=
  ¬ "sessdata=".toList <:+: (p.1 ++ "=" ++ p.2).toList

/-- The digits behind the first marker of the pair, none of which are left out, are those of
`n`: modulo 2^32, and the largest number if they do not fit into 64 bits. -/
def Numbered (p : String × String) (n : Nat) : Prop := ∃ pre digits rest,
  Search.First "sessdata=".toList (p.1 ++ "=" ++ p.2).toList pre (digits ++ rest) ∧
    (∀ c ∈ digits, c.isDigit) ∧ (∀ c ∈ rest.head?, ¬ c.isDigit) ∧
    n = if Nat.ofDigitChars 10 digits 0 < 2 ^ 63 then Nat.ofDigitChars 10 digits 0 % 2 ^ 32
      else 2 ^ 32 - 1

/-- What follows the marker in a pair, if it is there. -/
abbrev tokenOf (p : String × String) : Option (List Char) :=
  Search.tokenAfter Char.isDigit "sessdata=".toList (p.1 ++ "=" ++ p.2).toList

section Parse

variable {pairs : List (String × String)} {p : String × String} {digits : List Char} {n : Nat}

/-- `atoll` saturates, and the session is its value modulo 2³². -/
theorem atoll_mod : atoll digits % 2 ^ 32 =
    if Nat.ofDigitChars 10 digits 0 < 2 ^ 63 then Nat.ofDigitChars 10 digits 0 % 2 ^ 32
    else 2 ^ 32 - 1 := by
  unfold atoll
  split
  · rw [Nat.min_eq_left (by omega)]
  · rw [Nat.min_eq_right (by omega)]
    rfl

theorem tokenOf_eq_none_iff : tokenOf p = none ↔ Unmarked p := Search.tokenAfter_eq_none_iff

/-- A pair gives a number when it has the token, and then that of its digits. -/
theorem numbered_iff :
    Numbered p n ↔ ∃ digits, tokenOf p = some digits ∧ n = atoll digits % 2 ^ 32 := by
  simp only [Numbered, Search.tokenAfter_eq_some_iff, atoll_mod]
  constructor
  · rintro ⟨pre, digits, rest, hfirst, hdigits, hrest, hn⟩
    exact ⟨digits, ⟨pre, rest, hfirst, hdigits, hrest⟩, hn⟩
  · rintro ⟨digits, ⟨pre, rest, hfirst, hdigits, hrest⟩, hn⟩
    exact ⟨pre, digits, rest, hfirst, hdigits, hrest, hn⟩

/-- `parse_cookie` looks for the digits behind `sessdata=`. -/
theorem parseCookie_eq (cookie : String) : parseCookie cookie =
    (Search.tokenAfter Char.isDigit "sessdata=".toList cookie.toList).elim (0, true)
      fun digits => (atoll digits % 2 ^ 32, false) := by
  unfold parseCookie
  rw [← Search.find_eq]
  cases Search.find "sessdata=".toList cookie.toList with
  | none => rfl
  | some pos =>
    have htake (l : List Char) :
        l.take (l.takeWhile Char.isDigit).length = l.takeWhile Char.isDigit :=
      (List.prefix_iff_eq_take.mp (List.takeWhile_prefix _)).symm
    simp only [htake]
    rfl

/-- What separates two pairs is neither in the marker nor a digit. -/
theorem not_mem_marker {c : Char} (hc : c ∈ "; ".toList) :
    c ∉ "sessdata=".toList ∧ c.isDigit = false := by
  rcases List.mem_pair.mp hc with rfl | rfl
  · exact ⟨by decide, rfl⟩
  · exact ⟨by decide, rfl⟩

/-- It is the first pair with the marker that counts. -/
theorem tokenAfter_cookieHeader :
    Search.tokenAfter Char.isDigit "sessdata=".toList (cookieHeader pairs).toList =
      pairs.findSome? tokenOf := by
  unfold cookieHeader
  rw [String.toList_intercalate, List.map_map,
    Search.tokenAfter_intercalate (by decide) (by decide) fun _ => not_mem_marker,
    List.findSome?_map]
  rfl

/-- Without a marker there is no session. -/
theorem parseCookie_of_unmarked (h : ∀ p ∈ pairs, Unmarked p) :
    parseCookie (cookieHeader pairs) = (0, true) := by
  have hnone : pairs.findSome? tokenOf = none :=
    List.findSome?_eq_none_iff.mpr fun p hp => tokenOf_eq_none_iff.mpr (h p hp)
  rw [parseCookie_eq, tokenAfter_cookieHeader, hnone]
  rfl

/-- The first pair with a marker is read. -/
theorem parseCookie_of_numbered {before after : List (String × String)}
    (hpairs : pairs = before ++ p :: after) (hbefore : ∀ q ∈ before, Unmarked q)
    (hp : Numbered p n) : parseCookie (cookieHeader pairs) = (n, false) := by
  obtain ⟨digits, htoken, rfl⟩ := numbered_iff.mp hp
  have hsome : pairs.findSome? tokenOf = some digits :=
    List.findSome?_eq_some_iff.mpr
      ⟨before, p, after, hpairs, htoken, fun q hq => tokenOf_eq_none_iff.mpr (hbefore q hq)⟩
  rw [parseCookie_eq, tokenAfter_cookieHeader, hsome]
  rfl

/-- There are no other cases. -/
theorem unmarked_or_numbered (pairs : List (String × String)) : (∀ p ∈ pairs, Unmarked p) ∨
    ∃ n before p after, pairs = before ++ p :: after ∧ (∀ q ∈ before, Unmarked q) ∧
      Numbered p n := by
  cases htoken : pairs.findSome? tokenOf with
  | none =>
    exact .inl fun p hp => tokenOf_eq_none_iff.mp (List.findSome?_eq_none_iff.mp htoken p hp)
  | some digits =>
    obtain ⟨before, p, after, rfl, hp, hbefore⟩ := List.findSome?_eq_some_iff.mp htoken
    exact .inr ⟨atoll digits % 2 ^ 32, before, p, after, rfl,
      fun q hq => tokenOf_eq_none_iff.mp (hbefore q hq), numbered_iff.mpr ⟨digits, hp, rfl⟩⟩

/-! ## Sessions -/

/-- The pair of a session begins with the marker. -/
theorem first_session (n : Nat) : Search.First "sessdata=".toList
    ("sessdata" ++ "=" ++ toString n).toList [] (toString n).toList := by
  refine ⟨?_, fun pre' _ _ => Nat.zero_le _⟩
  rw [String.toList_append]
  rfl

theorem not_unmarked_session (n : Nat) : ¬ Unmarked ("sessdata", toString n) :=
  not_not_intro ⟨[], (toString n).toList, (first_session n).1.symm⟩

/-- What `std::to_string` has written is read. -/
theorem numbered_session (hn : n < 2 ^ 32) : Numbered ("sessdata", toString n) n := by
  have hdigits : (toString n).toList = Nat.toDigits 10 n := by
    rw [Nat.toString_eq_repr, Nat.toList_repr]
  refine ⟨[], (toString n).toList, [], ?_, ?_, fun c hc => (nomatch hc), ?_⟩
  · rw [List.append_nil]
    exact first_session n
  · rw [hdigits]
    exact fun c hc => Nat.isDigit_of_mem_toDigits (by decide) (by decide) hc
  · rw [hdigits, Nat.ofDigitChars_ten_toDigits, if_pos (by omega), Nat.mod_eq_of_lt hn]

/-- The marker has a letter that numbers do not have. -/
theorem unmarked_id (id : Int) : Unmarked ("id", toString id) := by
  have hnat (n : Nat) : 's' ∉ n.repr.toList := by
    rw [Nat.toList_repr]
    intro hs
    exact absurd (Nat.isDigit_of_mem_toDigits (by decide) (by decide) hs) (by decide)
  have hint : 's' ∉ (toString id).toList := by
    cases id with
    | ofNat n => exact hnat n
    | negSucc n =>
      show 's' ∉ ("-" ++ (n + 1).repr).toList
      rw [String.toList_append, List.mem_append, not_or]
      exact ⟨by decide, hnat (n + 1)⟩
  intro h
  have hs : 's' ∈ ("id" ++ "=" ++ toString id).toList := h.subset (by decide)
  rw [String.toList_append, List.mem_append] at hs
  exact hs.elim (by decide) hint

/-- **The session is read** exactly when there is no marker at all, or when there is one session
and it is what the digits behind the first marker are the number of. -/
theorem exact_iff (pairs : List (String × String)) : Exact pairs ↔
    (∀ p ∈ pairs, Unmarked p) ∨
      ∃ n, HasSession pairs n ∧ (∀ m, HasSession pairs m → m = n) ∧
        ∃ before p after, pairs = before ++ p :: after ∧ (∀ q ∈ before, Unmarked q) ∧
          Numbered p n := by
  constructor
  · intro h
    refine (unmarked_or_numbered pairs).imp_right ?_
    rintro ⟨n, before, p, after, hpairs, hbefore, hp⟩
    have hread := parseCookie_of_numbered hpairs hbefore hp
    refine ⟨n, (h.returns n).mp hread, fun m hm => ?_, before, p, after, hpairs, hbefore, hp⟩
    exact (Prod.mk.inj (((h.returns m).mpr hm).symm.trans hread)).1
  · rintro (hunmarked | ⟨n, hsession, huniq, before, p, after, hpairs, hbefore, hp⟩)
    · have hread := parseCookie_of_unmarked hunmarked
      refine ⟨fun m => ⟨fun hm => ?_, fun hm => ?_⟩, fun _ => by rw [hread]⟩
      · exact nomatch (Prod.mk.inj (hread.symm.trans hm)).2
      · exact absurd (hunmarked _ hm.2) (not_unmarked_session m)
    · have hread := parseCookie_of_numbered hpairs hbefore hp
      refine ⟨fun m => ⟨fun hm => ?_, fun hm => ?_⟩, fun hnone => absurd hsession (hnone n)⟩
      · obtain rfl := (Prod.mk.inj (hread.symm.trans hm)).1
        exact hsession
      · rw [hread, huniq m hm]

/-- A user whose name has the marker in it has the session of another one. -/
theorem name_read_as_session : ¬ Exact [("user_name", "sessdata=7"), ("sessdata", "5")] := by
  intro h
  have hread := (h.returns 7).mp (by decide)
  exact absurd hread.2 (by decide)

/-- **Logging in.** Whatever the order of the pairs that `/login` sets, the session is read,
unless the name of the user has the marker in it. -/
theorem parseCookie_login {userName : String} {id : Int} (hn : n < 2 ^ 32)
    (hname : Unmarked ("user_name", userName))
    (hperm : pairs.Perm (loginCookies n userName id)) :
    parseCookie (cookieHeader pairs) = (n, false) := by
  have hmem : ("sessdata", toString n) ∈ pairs := hperm.mem_iff.mpr List.mem_cons_self
  obtain ⟨before, after, hpairs, hbefore⟩ := List.eq_append_cons_of_mem hmem
  refine parseCookie_of_numbered hpairs (fun q hq => ?_) (numbered_session hn)
  have hq' := hperm.mem_iff.mp (hpairs ▸ List.mem_append_left _ hq)
  rcases List.mem_cons.mp hq' with rfl | hq'
  · exact absurd hq hbefore
  rcases List.mem_cons.mp hq' with rfl | hq'
  · exact hname
  · obtain rfl := List.mem_singleton.mp hq'
    exact unmarked_id id

end Parse

end HttpServer

end UnoppServer
