import UnoppServer.Lib.Runs

/-!
# Computations in sections

A computation runs in sections. Each finds the state as others have left it, changes it, and
decides how to go on; between two of them anything may happen. A `System` has a state and any
number of such computations, one for each request that has arrived. Other actions change the
state too.

- `Acts I G Q p past`: if the states of `past` have been, every section of `p` changes the state as
  `G` allows, and what `p` returns is as `Q` says. Both may go back to a state that has been, such
  as one in which a section has looked something up;
- `explained_of_run`: in every run, what a computation does and what it returns is as its request
  allows;
- `Clean p`: once a section has changed the state, `p` does not throw;
- `quiet_of_throws`: in every run, a computation that has thrown has changed nothing.
-/

namespace Sections

open Runs

variable {σ ω ε α β ρ κ γ φ : Type}

/-- A computation. What is decided outside during a section is in `ω`. -/
inductive Prog (σ ω ε α : Type) where
  | ret (r : Except ε α)
  | sect (effect : ω → σ → σ) (next : ω → σ → Prog σ ω ε α)

namespace Prog

/-- The computation goes on with `f`, unless it throws. -/
def bind (p : Prog σ ω ε α) (f : α → Prog σ ω ε β) : Prog σ ω ε β :=
  match p with
  | .ret (.ok a) => f a
  | .ret (.error e) => .ret (.error e)
  | .sect effect next => .sect effect fun w s => (next w s).bind f

instance : Monad (Prog σ ω ε) where
  pure a := .ret (.ok a)
  bind := bind

/-- What is computed outside of all sections. -/
def lift (r : Except ε α) : Prog σ ω ε α := .ret r

/-- The state that a section leaves. One that throws has done nothing. -/
def after (s : σ) : Except ε (α × σ) → σ
  | .ok r => r.2
  | .error _ => s

/-- One section. -/
def call (f : ω → σ → Except ε (α × σ)) : Prog σ ω ε α :=
  .sect (fun w s => after s (f w s)) fun w s => .ret ((f w s).map Prod.fst)

end Prog

open Prog

/-! ## What a computation does -/

/-- Every section changes the state as `G` allows, and what is returned is as `Q` says. -/
def Acts (I : σ → Prop) (G : (σ → Prop) → σ → σ → Prop) (Q : (σ → Prop) → α → Prop) :
    Prog σ ω ε α → (σ → Prop) → Prop
  | .ret r, past => ∀ a, r = .ok a → Q past a
  | .sect effect next, past =>
    ∀ past' : σ → Prop, (∀ s, past s → past' s) → (∀ s, past' s → I s) → ∀ w s, past' s →
      G past' s (effect w s) ∧ Acts I G Q (next w s) past'

/-- No section changes the state. -/
def Quiet : Prog σ ω ε α → Prop
  | .ret _ => True
  | .sect effect next => ∀ w s, effect w s = s ∧ Quiet (next w s)

/-- The computation returns a value, whatever happens. -/
def Returns : Prog σ ω ε α → Prop
  | .ret r => ∃ a, r = .ok a
  | .sect _ next => ∀ w s, Returns (next w s)

/-- Once a section has changed the state, the computation does not throw. -/
def Clean : Prog σ ω ε α → Prop
  | .ret _ => True
  | .sect effect next => ∀ w s, (effect w s = s ∧ Clean (next w s)) ∨ Returns (next w s)

section Rules

variable {I : σ → Prop} {G : (σ → Prop) → σ → σ → Prop} {Q : (σ → Prop) → β → Prop}
  {P : (σ → Prop) → α → Prop} {p : Prog σ ω ε α} {f : α → Prog σ ω ε β} {past past' : σ → Prop}

theorem Acts.pure {a : α} (h : P past a) :
    Acts I G P (Pure.pure a : Prog σ ω ε α) past := fun _ hb => Except.ok.inj hb ▸ h

theorem Acts.lift_bind {r : Except ε α} (h : ∀ a, r = .ok a → Acts I G Q (f a) past) :
    Acts I G Q (Prog.lift r >>= f) past := by
  cases r with
  | ok a => exact h a rfl
  | error e => exact fun _ hb => nomatch hb

/-- The second part may use what is known of the value, in whatever past it has become. -/
theorem Acts.bind (hp : Acts I G P p past)
    (hf : ∀ past', (∀ s, past s → past' s) → ∀ a, P past' a → Acts I G Q (f a) past') :
    Acts I G Q (p >>= f) past := by
  induction p generalizing past with
  | ret r =>
    cases r with
    | ok a => exact hf past (fun _ hs => hs) a (hp a rfl)
    | error e => exact fun _ hb => nomatch hb
  | sect effect next ih =>
    intro past' hpast hI w s hs
    obtain ⟨hG, hnext⟩ := hp past' hpast hI w s hs
    refine ⟨hG, ih w s hnext fun past'' hpast' => ?_⟩
    exact hf past'' fun s hs => hpast' s (hpast s hs)

/-- A section that throws changes nothing, and anything may do this. -/
theorem Acts.call {g : ω → σ → Except ε (α × σ)} (hrefl : ∀ past s, past s → G past s s)
    (h : ∀ past', (∀ s, past s → past' s) → ∀ w s, past' s → I s → ∀ a s',
      g w s = .ok (a, s') → G past' s s' ∧ P past' a) :
    Acts I G P (Prog.call g) past := by
  intro past' hpast hI w s hs
  dsimp only
  cases hg : g w s with
  | error e => exact ⟨hrefl past' s hs, fun a ha => (nomatch ha)⟩
  | ok r =>
    obtain ⟨hG, hP⟩ := h past' hpast w s hs (hI s hs) r.1 r.2 hg
    exact ⟨hG, fun a ha => Except.ok.inj ha ▸ hP⟩

/-- More may have been by then. -/
theorem Acts.mono (hP : ∀ past past' a, (∀ s, past s → past' s) → P past a → P past' a)
    (h : Acts I G P p past) (hpast : ∀ s, past s → past' s) : Acts I G P p past' := by
  cases p with
  | ret r => exact fun a ha => hP past past' a hpast (h a ha)
  | sect effect next =>
    intro past'' hpast' hI
    exact h past'' (fun s hs => hpast' s (hpast s hs)) hI

theorem Acts.ite {c : Prop} [Decidable c] {q : Prog σ ω ε α} (hp : c → Acts I G P p past)
    (hq : ¬c → Acts I G P q past) : Acts I G P (if c then p else q) past := by
  split
  · exact hp ‹c›
  · exact hq ‹¬c›

theorem returns_pure {a : α} : Returns (Pure.pure a : Prog σ ω ε α) := ⟨a, rfl⟩

theorem Returns.bind (hp : Returns p) (hf : ∀ a, Returns (f a)) : Returns (p >>= f) := by
  induction p with
  | ret r =>
    obtain ⟨a, rfl⟩ := hp
    exact hf a
  | sect effect next ih => exact fun w s => ih w s (hp w s)

theorem returns_call {g : ω → σ → Except ε (α × σ)} (h : ∀ w s, ∃ r, g w s = .ok r) :
    Returns (Prog.call g) := fun w s => by
  obtain ⟨r, hr⟩ := h w s
  exact ⟨r.1, by rw [hr]; rfl⟩

theorem quiet_call {g : ω → σ → Except ε (α × σ)} (h : ∀ w s a s', g w s = .ok (a, s') → s' = s) :
    Quiet (Prog.call g) := fun w s => by
  dsimp only
  cases hg : g w s with
  | error e => exact ⟨rfl, trivial⟩
  | ok r => exact ⟨h w s r.1 r.2 hg, trivial⟩

theorem Quiet.bind (hp : Quiet p) (hf : ∀ a, Quiet (f a)) : Quiet (p >>= f) := by
  induction p with
  | ret r =>
    cases r with
    | ok a => exact hf a
    | error e => trivial
  | sect effect next ih => exact fun w s => ⟨(hp w s).1, ih w s (hp w s).2⟩

theorem Quiet.clean (hp : Quiet p) : Clean p := by
  induction p with
  | ret r => trivial
  | sect effect next ih => exact fun w s => .inl ⟨(hp w s).1, ih w s (hp w s).2⟩

theorem Returns.clean (hp : Returns p) : Clean p := by
  cases p with
  | ret r => trivial
  | sect effect next => exact fun w s => .inr (hp w s)

/-- One section is enough for a change. -/
theorem clean_call (g : ω → σ → Except ε (α × σ)) : Clean (Prog.call g) := fun w s => by
  dsimp only
  cases hg : g w s with
  | error e => exact .inl ⟨rfl, trivial⟩
  | ok r => exact .inr ⟨r.1, rfl⟩

/-- What is looked up before the change may throw, -/
theorem Quiet.bind_clean (hp : Quiet p) (hf : ∀ a, Clean (f a)) : Clean (p >>= f) := by
  induction p with
  | ret r =>
    cases r with
    | ok a => exact hf a
    | error e => trivial
  | sect effect next ih => exact fun w s => .inl ⟨(hp w s).1, ih w s (hp w s).2⟩

/-- but nothing after it. -/
theorem Clean.bind_returns (hp : Clean p) (hf : ∀ a, Returns (f a)) : Clean (p >>= f) := by
  induction p with
  | ret r =>
    cases r with
    | ok a => exact (hf a).clean
    | error e => trivial
  | sect effect next ih =>
    refine fun w s => (hp w s).imp (fun hq => ⟨hq.1, ih w s hq.2⟩) fun hr => ?_
    exact Returns.bind hr hf

theorem clean_pure {r : Except ε α} : Clean (Prog.lift r : Prog σ ω ε α) := trivial

theorem Clean.lift_bind {r : Except ε α} (h : ∀ a, Clean (f a)) : Clean (Prog.lift r >>= f) := by
  cases r with
  | ok a => exact h a
  | error e => trivial

end Rules

/-! ## Any number of computations -/

/-- A state, and the computations in progress with their requests. -/
structure System (σ ω ε α ρ : Type) where
  state : σ
  threads : Nat → Option (ρ × Prog σ ω ε α)

/-- A request arrives, a section is performed, an answer is given, or something else happens. -/
inductive Act (ω ρ κ : Type) where
  | arrive (thread : Nat) (r : ρ)
  | go (thread : Nat) (w : ω)
  | leave (thread : Nat)
  | other (k : κ)

/-- What can be seen of it. -/
inductive Seen (ε α ρ γ : Type) where
  | nothing
  | answer (r : ρ) (x : Except ε α)
  | other (b : γ)

/-- Put a computation in its place, or none. -/
def System.put (S : System σ ω ε α ρ) (thread : Nat) (t : Option (ρ × Prog σ ω ε α)) :
    System σ ω ε α ρ := { S with threads := Function.update S.threads thread t }

/-- The threads after one of them has been replaced. -/
theorem threads_put {S : System σ ω ε α ρ} {thread thread' : Nat}
    {t : Option (ρ × Prog σ ω ε α)} {x : ρ × Prog σ ω ε α}
    (h : (S.put thread t).threads thread' = some x) :
    (thread' = thread ∧ t = some x) ∨ (thread' ≠ thread ∧ S.threads thread' = some x) := by
  change Function.update S.threads thread t thread' = some x at h
  obtain rfl | hne := eq_or_ne thread' thread
  · rw [Function.update_self] at h
    exact .inl ⟨rfl, h⟩
  · rw [Function.update_of_ne hne] at h
    exact .inr ⟨hne, h⟩

section System

variable (handle : ρ → Prog σ ω ε α) (other : σ → κ → Except φ (γ × σ))

/-- Perform an action. There is no step of a thread that has nothing to do. -/
def step (S : System σ ω ε α ρ) : Act ω ρ κ → Except φ (Seen ε α ρ γ × System σ ω ε α ρ)
  | .arrive thread r =>
    match S.threads thread with
    | some _ => .ok (.nothing, S)
    | none => .ok (.nothing, S.put thread (some (r, handle r)))
  | .go thread w =>
    match S.threads thread with
    | some (r, .sect effect next) =>
      .ok (.nothing, { S.put thread (some (r, next w S.state)) with state := effect w S.state })
    | _ => .ok (.nothing, S)
  | .leave thread =>
    match S.threads thread with
    | some (r, .ret x) => .ok (.answer r x, S.put thread none)
    | _ => .ok (.nothing, S)
  | .other k =>
    match other S.state k with
    | .error e => .error e
    | .ok (b, s) => .ok (.other b, { S with state := s })

end System

/-- The steps of a run. -/
abbrev Step (σ ω ε α ρ κ γ : Type) := Entry (System σ ω ε α ρ) (Act ω ρ κ) (Seen ε α ρ γ)

/-- The states in which the steps have been made. -/
def Been (l : List (Step σ ω ε α ρ κ γ)) (s : σ) : Prop := ∃ e ∈ l, s = e.pre.state

/-- The steps `since` have been made since the request has arrived, and there has been no answer. -/
structure Arrived (h : List (Step σ ω ε α ρ κ γ)) (thread : Nat) (r : ρ)
    (since : List (Step σ ω ε α ρ κ γ)) : Prop where
  arrived : ∃ h₁ e₀, h = h₁ ++ e₀ :: since ∧ e₀.act = .arrive thread r
  stayed : ∀ e ∈ since, e.act ≠ .leave thread ∨ e.out = .nothing

/-- What is known of the step `e` after the steps `h`: nothing happens, or a section does what its
request allows, or an answer is as its request allows, or it is another action. -/
inductive Explained (other : σ → κ → Except φ (γ × σ)) (G : ρ → (σ → Prop) → σ → σ → Prop)
    (Q : ρ → (σ → Prop) → α → Prop) (h : List (Step σ ω ε α ρ κ γ)) (e : Step σ ω ε α ρ κ γ) :
    Prop where
  | nothing (hstate : e.post.state = e.pre.state) (hout : ∀ r a, e.out ≠ .answer r (.ok a))
  | goes {thread : Nat} {w : ω} {r : ρ} {since : List (Step σ ω ε α ρ κ γ)}
      (hact : e.act = .go thread w) (harrived : Arrived h thread r since)
      (hdo : G r (Been (since ++ [e])) e.pre.state e.post.state) (hout : e.out = .nothing)
  | answer {thread : Nat} {r : ρ} {a : α} {since : List (Step σ ω ε α ρ κ γ)}
      (hact : e.act = .leave thread) (harrived : Arrived h thread r since)
      (hout : e.out = .answer r (.ok a)) (hstate : e.post.state = e.pre.state)
      (hgiven : Q r (Been since) a)
  | other {k : κ} {b : γ} (hact : e.act = .other k)
      (hstep : other e.pre.state k = .ok (b, e.post.state)) (hout : e.out = .other b)

section Run

variable {handle : ρ → Prog σ ω ε α} {other : σ → κ → Except φ (γ × σ)}
  {ok : System σ ω ε α ρ → Act ω ρ κ → Prop} {I : σ → Prop}
  {G : ρ → (σ → Prop) → σ → σ → Prop} {Q : ρ → (σ → Prop) → α → Prop} {s₀ : σ}
  {h since : List (Step σ ω ε α ρ κ γ)} {e : Step σ ω ε α ρ κ γ} {S S' : System σ ω ε α ρ}
  {thread : Nat} {r : ρ} {t : Prog σ ω ε α}

/-- No request has arrived. -/
def System.init (s₀ : σ) : System σ ω ε α ρ := ⟨s₀, fun _ => none⟩

/-- The invariant of the states, and what the computations in progress have still to do. -/
structure Inv (I : σ → Prop) (G : ρ → (σ → Prop) → σ → σ → Prop)
    (Q : ρ → (σ → Prop) → α → Prop) (h : List (Step σ ω ε α ρ κ γ)) (S : System σ ω ε α ρ) :
    Prop where
  state : I S.state
  been : ∀ s, Been h s → I s
  threads : ∀ thread r t, S.threads thread = some (r, t) →
    ∃ since, Arrived h thread r since ∧ Acts I (G r) (Q r) t (Been since)

theorem been_append {l : List (Step σ ω ε α ρ κ γ)} {s : σ} (hs : Been l s) :
    Been (l ++ [e]) s := by
  obtain ⟨e', he', rfl⟩ := hs
  exact ⟨e', List.mem_append_left _ he', rfl⟩

theorem been_last {l : List (Step σ ω ε α ρ κ γ)} : Been (l ++ [e]) e.pre.state :=
  ⟨e, List.mem_append_right _ List.mem_cons_self, rfl⟩

/-- What has been since the request has arrived has been. -/
theorem Arrived.been (ha : Arrived h thread r since) {s : σ} (hs : Been since s) : Been h s := by
  obtain ⟨⟨h₁, e₀, rfl, -⟩, -⟩ := ha
  obtain ⟨e', he', rfl⟩ := hs
  exact ⟨e', List.mem_append_right _ (List.mem_cons_of_mem _ he'), rfl⟩

theorem Arrived.append (ha : Arrived h thread r since)
    (hstay : e.act ≠ .leave thread ∨ e.out = .nothing) :
    Arrived (h ++ [e]) thread r (since ++ [e]) := by
  obtain ⟨⟨h₁, e₀, rfl, hact⟩, hstayed⟩ := ha
  refine ⟨⟨h₁, e₀, by rw [List.append_assoc]; rfl, hact⟩, ?_⟩
  exact List.forall_mem_append.mpr ⟨hstayed, List.forall_mem_singleton.mpr hstay⟩

/-- The request arrives. -/
theorem arrived_now (hact : e.act = .arrive thread r) : Arrived (h ++ [e]) thread r [] :=
  ⟨⟨h, e, rfl, hact⟩, List.forall_mem_nil _⟩

/-- **Step lemma.** -/
theorem Inv.step (hmono : ∀ r past past' a, (∀ s, past s → past' s) → Q r past a → Q r past' a)
    (hkeeps : ∀ r past s s', I s → G r past s s' → I s')
    (hother : ∀ S k b s', ok S (.other k) → I S.state → other S.state k = .ok (b, s') → I s')
    (hacts : ∀ r past, Acts I (G r) (Q r) (handle r) past) (hinv : Inv I G Q h S)
    {a : Act ω ρ κ} {b : Seen ε α ρ γ} (hok : ok S a)
    (hstep : Sections.step handle other S a = .ok (b, S')) :
    Inv I G Q (h ++ [⟨S, a, b, S'⟩]) S' ∧ Explained other G Q h ⟨S, a, b, S'⟩ := by
  have hbeen : ∀ s, Been (h ++ [⟨S, a, b, S'⟩]) s → I s := by
    rintro s ⟨e, he, rfl⟩
    rcases List.mem_append.mp he with he | he
    · exact hinv.been _ ⟨e, he, rfl⟩
    · obtain rfl := List.mem_singleton.mp he
      exact hinv.state
  -- a thread that has not moved
  have hold : ∀ thread r t, S.threads thread = some (r, t) →
      (a ≠ .leave thread ∨ b = .nothing) → ∃ since, Arrived (h ++ [⟨S, a, b, S'⟩]) thread r since ∧
        Acts I (G r) (Q r) t (Been since) := by
    intro thread r t ht hstay
    obtain ⟨since, harrived, hacts⟩ := hinv.threads thread r t ht
    exact ⟨_, harrived.append hstay, hacts.mono (hmono r) fun _ => been_append⟩
  -- a thread that has a new computation, and does not leave
  have hput : ∀ {thread r t}, S'.threads = (S.put thread (some (r, t))).threads → b = .nothing →
      (∃ since, Arrived (h ++ [⟨S, a, b, S'⟩]) thread r since ∧
        Acts I (G r) (Q r) t (Been since)) → I S'.state →
      Inv I G Q (h ++ [⟨S, a, b, S'⟩]) S' := by
    intro thread r t hthreads hout hnew hI
    refine ⟨hI, hbeen, fun thread' r' t' ht' => ?_⟩
    rw [hthreads] at ht'
    obtain ⟨rfl, he⟩ | ⟨hne, he⟩ := threads_put ht'
    · obtain ⟨rfl, rfl⟩ := Prod.mk.inj (Option.some.inj he)
      exact hnew
    · exact hold thread' r' t' he (.inr hout)
  have hsame : S' = S → b = .nothing →
      Inv I G Q (h ++ [⟨S, a, b, S'⟩]) S' ∧ Explained other G Q h ⟨S, a, b, S'⟩ := by
    rintro rfl rfl
    refine ⟨⟨hinv.state, hbeen, fun thread r t ht => hold thread r t ht (.inr rfl)⟩, ?_⟩
    exact .nothing rfl fun _ _ ho => nomatch ho
  cases a with
  | arrive thread r =>
    unfold Sections.step at hstep
    dsimp only at hstep
    split at hstep
    · obtain ⟨rfl, rfl⟩ := Prod.mk.inj (Except.ok.inj hstep)
      exact hsame rfl rfl
    · obtain ⟨rfl, rfl⟩ := Prod.mk.inj (Except.ok.inj hstep)
      exact ⟨hput rfl rfl ⟨[], arrived_now rfl, hacts r _⟩ hinv.state,
        .nothing rfl fun _ _ ho => nomatch ho⟩
  | go thread w =>
    unfold Sections.step at hstep
    dsimp only at hstep
    split at hstep
    · rename_i r effect next hthread
      obtain ⟨hout, rfl⟩ := Prod.mk.inj (Except.ok.inj hstep)
      obtain ⟨since, harrived, ht⟩ := hinv.threads thread r _ hthread
      have happend := harrived.append (e := ⟨S, .go thread w, b,
        { S.put thread (some (r, next w S.state)) with state := effect w S.state }⟩)
        (.inr hout.symm)
      obtain ⟨hdo, hnext⟩ := ht _ (fun _ => been_append) (fun s hs => hbeen s (happend.been hs)) w
        S.state been_last
      refine ⟨hput rfl hout.symm ⟨_, happend, hnext⟩ (hkeeps r _ _ _ hinv.state hdo), ?_⟩
      exact .goes rfl harrived hdo hout.symm
    · obtain ⟨rfl, rfl⟩ := Prod.mk.inj (Except.ok.inj hstep)
      exact hsame rfl rfl
  | leave thread =>
    unfold Sections.step at hstep
    dsimp only at hstep
    split at hstep
    · rename_i r x hthread
      obtain ⟨rfl, rfl⟩ := Prod.mk.inj (Except.ok.inj hstep)
      obtain ⟨since, harrived, ht⟩ := hinv.threads thread r _ hthread
      refine ⟨⟨hinv.state, hbeen, fun thread' r' t' ht' => ?_⟩, ?_⟩
      · obtain ⟨rfl, he⟩ | ⟨hne, he⟩ := threads_put ht'
        · cases he
        · exact hold thread' r' t' he (.inl fun hl => hne (Act.leave.inj hl).symm)
      · cases x with
        | ok a => exact .answer rfl harrived rfl rfl (ht a rfl)
        | error e => exact .nothing rfl fun _ _ ho => nomatch ho
    · obtain ⟨rfl, rfl⟩ := Prod.mk.inj (Except.ok.inj hstep)
      exact hsame rfl rfl
  | other k =>
    unfold Sections.step at hstep
    dsimp only at hstep
    split at hstep
    · cases hstep
    · rename_i b' s' hk
      obtain ⟨rfl, rfl⟩ := Prod.mk.inj (Except.ok.inj hstep)
      have hstate := hother S k b' s' hok hinv.state hk
      refine ⟨⟨hstate, hbeen, fun thread r t ht => ?_⟩, .other rfl hk rfl⟩
      exact hold thread r t ht (.inl fun hl => nomatch hl)

/-- **Run lemma**: every step of a run is explained by what came before it. -/
theorem explained_of_run (hI : I s₀)
    (hmono : ∀ r past past' a, (∀ s, past s → past' s) → Q r past a → Q r past' a)
    (hkeeps : ∀ r past s s', I s → G r past s s' → I s')
    (hother : ∀ S k b s', ok S (.other k) → I S.state → other S.state k = .ok (b, s') → I s')
    (hacts : ∀ r past, Acts I (G r) (Q r) (handle r) past)
    (hr : Run (Sections.step handle other) ok (System.init s₀) h S) :
    Inv I G Q h S ∧ ∀ h₁ e h₂, h = h₁ ++ e :: h₂ → Explained other G Q h₁ e := by
  induction hr with
  | nil =>
    refine ⟨⟨hI, fun s ⟨e, he, _⟩ => absurd he List.not_mem_nil, fun _ _ _ ht => nomatch ht⟩, ?_⟩
    intro h₁ e h₂ he
    exact absurd he.symm (List.append_ne_nil_of_right_ne_nil _ (List.cons_ne_nil _ _))
  | snoc hl hok hstep ih =>
    obtain ⟨hinv, hall⟩ := ih
    obtain ⟨hinv', hlast⟩ := hinv.step hmono hkeeps hother hacts hok hstep
    refine ⟨hinv', fun h₁ e h₂ he => ?_⟩
    rcases List.eq_nil_or_concat h₂ with rfl | ⟨h₂', e', rfl⟩
    · obtain ⟨rfl, hlast'⟩ := List.append_inj' he rfl
      obtain rfl := (List.cons.inj hlast').1
      exact hlast
    · rw [List.concat_eq_append, ← List.cons_append, ← List.append_assoc] at he
      exact hall h₁ e h₂' (List.append_inj' he rfl).1

/-! ## Computations that throw -/

/-- A computation may still throw only if it has changed nothing since its request has arrived. -/
def Harmless (h : List (Step σ ω ε α ρ κ γ)) (thread : Nat) (r : ρ) (t : Prog σ ω ε α) : Prop :=
  ∃ since, Arrived h thread r since ∧
    ((Clean t ∧ ∀ e ∈ since, ∀ w, e.act = .go thread w → e.post.state = e.pre.state) ∨ Returns t)

/-- One more step of a thread that has done no harm so far. -/
theorem Harmless.append (ht : Harmless h thread r t) {t' : Prog σ ω ε α}
    (hstay : e.act ≠ .leave thread ∨ e.out = .nothing)
    (hgo : Clean t →
      (Clean t' ∧ ∀ w, e.act = .go thread w → e.post.state = e.pre.state) ∨ Returns t')
    (hreturns : Returns t → Returns t') : Harmless (h ++ [e]) thread r t' := by
  obtain ⟨since, harrived, ⟨hclean, hquiet⟩ | hret⟩ := ht
  · refine ⟨_, harrived.append hstay, (hgo hclean).imp (fun hgo => ⟨hgo.1, ?_⟩) id⟩
    exact List.forall_mem_append.mpr ⟨hquiet, List.forall_mem_singleton.mpr hgo.2⟩
  · exact ⟨_, harrived.append hstay, .inr (hreturns hret)⟩

/-- **Step lemma.** -/
theorem harmless_step (hclean : ∀ r, Clean (handle r))
    (hall : ∀ thread r t, S.threads thread = some (r, t) → Harmless h thread r t)
    {a : Act ω ρ κ} {b : Seen ε α ρ γ} (hstep : Sections.step handle other S a = .ok (b, S')) :
    ∀ thread r t, S'.threads thread = some (r, t) →
      Harmless (h ++ [⟨S, a, b, S'⟩]) thread r t := by
  -- a step of another thread
  have hother : ∀ {thread r t}, S.threads thread = some (r, t) →
      (a ≠ .leave thread ∨ b = .nothing) → (∀ w, a = .go thread w → S'.state = S.state) →
      Harmless (h ++ [⟨S, a, b, S'⟩]) thread r t := fun ht hstay hgo =>
    (hall _ _ _ ht).append hstay (fun hc => .inl ⟨hc, hgo⟩) id
  cases a with
  | arrive thread r =>
    unfold Sections.step at hstep
    dsimp only at hstep
    split at hstep
    · obtain ⟨rfl, rfl⟩ := Prod.mk.inj (Except.ok.inj hstep)
      exact fun thread' r' t' ht' => hother ht' (.inr rfl) fun _ _ => rfl
    · obtain ⟨rfl, rfl⟩ := Prod.mk.inj (Except.ok.inj hstep)
      intro thread' r' t' ht'
      obtain ⟨rfl, he⟩ | ⟨hne, he⟩ := threads_put ht'
      · obtain ⟨rfl, rfl⟩ := Prod.mk.inj (Option.some.inj he)
        exact ⟨[], arrived_now rfl, .inl ⟨hclean r, List.forall_mem_nil _⟩⟩
      · exact hother he (.inr rfl) fun _ _ => rfl
  | go thread w =>
    unfold Sections.step at hstep
    dsimp only at hstep
    split at hstep
    · rename_i r effect next hthread
      obtain ⟨rfl, rfl⟩ := Prod.mk.inj (Except.ok.inj hstep)
      intro thread' r' t' ht'
      obtain ⟨rfl, he⟩ | ⟨hne, he⟩ := threads_put ht'
      · obtain ⟨rfl, rfl⟩ := Prod.mk.inj (Option.some.inj he)
        refine (hall _ _ _ hthread).append (.inr rfl) (fun hc => ?_) fun hret => hret w S.state
        exact (hc w S.state).imp (fun hc => ⟨hc.2, fun _ _ => hc.1⟩) id
      · refine hother he (.inr rfl) fun w' hw => ?_
        exact absurd (Act.go.inj hw).1.symm hne
    · obtain ⟨rfl, rfl⟩ := Prod.mk.inj (Except.ok.inj hstep)
      exact fun thread' r' t' ht' => hother ht' (.inr rfl) fun _ _ => rfl
  | leave thread =>
    unfold Sections.step at hstep
    dsimp only at hstep
    split at hstep
    · obtain ⟨rfl, rfl⟩ := Prod.mk.inj (Except.ok.inj hstep)
      intro thread' r' t' ht'
      obtain ⟨rfl, he⟩ | ⟨hne, he⟩ := threads_put ht'
      · cases he
      · refine hother he (.inl fun hl => ?_) fun _ hw => nomatch hw
        exact hne (Act.leave.inj hl).symm
    · obtain ⟨rfl, rfl⟩ := Prod.mk.inj (Except.ok.inj hstep)
      exact fun thread' r' t' ht' => hother ht' (.inr rfl) fun _ _ => rfl
  | other k =>
    unfold Sections.step at hstep
    dsimp only at hstep
    split at hstep
    · cases hstep
    · obtain ⟨rfl, rfl⟩ := Prod.mk.inj (Except.ok.inj hstep)
      exact fun thread' r' t' ht' =>
        hother ht' (.inl fun he => nomatch he) fun _ hw => nomatch hw

/-- **A computation that has thrown has changed nothing** since its request has arrived. -/
theorem quiet_of_throws (hclean : ∀ r, Clean (handle r))
    (hr : Run (Sections.step handle other) ok (System.init s₀) h S) {x : ε}
    (hthread : S.threads thread = some (r, .ret (.error x))) :
    ∃ since, Arrived h thread r since ∧
      ∀ e ∈ since, ∀ w, e.act = .go thread w → e.post.state = e.pre.state := by
  have hall : ∀ thread r t, S.threads thread = some (r, t) → Harmless h thread r t := by
    clear hthread
    induction hr with
    | nil => exact fun _ _ _ ht => nomatch ht
    | snoc hl hok hstep ih => exact harmless_step hclean ih hstep
  obtain ⟨since, harrived, ⟨-, hquiet⟩ | ⟨a, ha⟩⟩ := hall _ _ _ hthread
  · exact ⟨since, harrived, hquiet⟩
  · cases ha

end Run

end Sections
