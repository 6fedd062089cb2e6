import UnoppServer.Lib.Ensures

/-!
# Handlers and the requests they read

A handler reads a request, which may ask for an operation, and performs it. The
request alone is a computation too: it yields the operation or fails. Handler
and request are built alike, so what the handler does can be said in terms of
the request, by rules that go through both at once:

- `Simulates x y R`: when the computation `x` yields a value, `y` yields one too, in the
  relation `R`;
- `Follows request handler P`: when the handler yields a value, the request
  yields some `o`, and `P o` holds of the value;
- `Serves request handler Q`: the handler yields a value iff the request does
  and `Q` holds of the operation it asks for, if any;
- `Blames e request handler Q`: the handler fails with `e` iff the request asks for an
  operation of which `Q` holds.
-/

universe u v w x

section

variable {ε : Type u} {ω : Type v} {β : Type w}

/-- What the one computation yields, the other yields too. -/
def Simulates (x : Except ε ω) (y : Except ε β) (R : ω → β → Prop) : Prop :=
  Ensures x fun a => ∃ b, y = .ok b ∧ R a b

/-- The handler does what the request asks for. -/
def Follows (request : Except ε (Option ω)) (handler : Except ε β) (P : Option ω → β → Prop) :
    Prop :=
  Ensures handler fun b => ∃ o, request = .ok o ∧ P o b

/-- The handler yields a value iff the request does and its operation is fit. -/
def Serves (request : Except ε (Option ω)) (handler : Except ε β) (Q : ω → Prop) : Prop :=
  (∃ b, handler = .ok b) ↔ (∃ o, request = .ok o) ∧ ∀ op, request = .ok (some op) → Q op

/-- The handler fails with the error iff the request asks for an operation with `Q`. -/
def Blames (e : ε) (request : Except ε (Option ω)) (handler : Except ε β) (Q : ω → Prop) : Prop :=
  handler = .error e ↔ ∃ op, request = .ok (some op) ∧ Q op

end

namespace Simulates

variable {ε : Type u} {α α' β γ : Type v} {R : β → γ → Prop}

theorem ok {b : β} {c : γ} (h : R b c) : Simulates (.ok b : Except ε β) (.ok c) R :=
  Ensures.ok ⟨c, rfl, h⟩

/-- Sequential composition: what follows related results simulates as well. -/
theorem bind {P : α → α' → Prop} {x : Except ε α} {y : Except ε α'} {f : α → Except ε β}
    {g : α' → Except ε γ} (hx : Simulates x y P) (h : ∀ a b, P a b → Simulates (f a) (g b) R) :
    Simulates (x >>= f) (y >>= g) R := by
  cases x with
  | error e => exact Ensures.error
  | ok a =>
    obtain ⟨b, rfl, hab⟩ := hx a rfl
    exact h a b hab

/-- The first part is the same. -/
theorem bind' {x : Except ε α} {f : α → Except ε β} {g : α → Except ε γ}
    (h : ∀ a, Simulates (f a) (g a) R) : Simulates (x >>= f) (x >>= g) R := by
  cases x with
  | error e => exact Ensures.error
  | ok a => exact h a

theorem ite {c : Prop} [Decidable c] {x x' : Except ε β} {y y' : Except ε γ}
    (h : Simulates x y R) (h' : Simulates x' y' R) :
    Simulates (if c then x else x') (if c then y else y') R := by
  split
  · exact h
  · exact h'

end Simulates

namespace Follows

variable {ε : Type u} {ω β α : Type v} {P : Option ω → β → Prop}

/-- The request has been read. -/
theorem read {o : Option ω} {handler : Except ε β} (h : Ensures handler (P o)) :
    Follows (.ok o) handler P := h.mono fun _ hb => ⟨o, rfl, hb⟩

theorem bind {x : Except ε α} {request : α → Except ε (Option ω)} {handler : α → Except ε β}
    (h : ∀ a, Follows (request a) (handler a) P) : Follows (x >>= request) (x >>= handler) P := by
  cases x with
  | error e => exact .error
  | ok a => exact h a

theorem ite {c : Prop} [Decidable c] {request request' : Except ε (Option ω)}
    {handler handler' : Except ε β} (h : c → Follows request handler P)
    (h' : ¬ c → Follows request' handler' P) :
    Follows (if c then request else request') (if c then handler else handler') P := by
  split
  · exact h ‹c›
  · exact h' ‹¬ c›

end Follows

namespace Serves

variable {ε : Type u} {ω β α : Type v} {Q : ω → Prop}

/-- The request asks for nothing, and the handler ends. -/
theorem nothing {b : β} : Serves (.ok none : Except ε (Option ω)) (.ok b) Q :=
  iff_of_true ⟨b, rfl⟩ ⟨⟨none, rfl⟩, fun _ h => nomatch h⟩

/-- The request asks for an operation. -/
theorem read {op : ω} {handler : Except ε β} (h : (∃ b, handler = .ok b) ↔ Q op) :
    Serves (.ok (some op)) handler Q := by
  refine h.trans ⟨fun hq => ⟨⟨some op, rfl⟩, fun op' h' => ?_⟩, fun hq => hq.2 op rfl⟩
  obtain rfl := Option.some.inj (Except.ok.inj h')
  exact hq

theorem bind {x : Except ε α} {request : α → Except ε (Option ω)} {handler : α → Except ε β}
    (h : ∀ a, Serves (request a) (handler a) Q) : Serves (x >>= request) (x >>= handler) Q := by
  cases x with
  | error e => exact iff_of_false (fun ⟨_, h⟩ => nomatch h) fun ⟨⟨_, h⟩, _⟩ => nomatch h
  | ok a => exact h a

theorem ite {c : Prop} [Decidable c] {request request' : Except ε (Option ω)}
    {handler handler' : Except ε β} (h : c → Serves request handler Q)
    (h' : ¬ c → Serves request' handler' Q) :
    Serves (if c then request else request') (if c then handler else handler') Q := by
  split
  · exact h ‹c›
  · exact h' ‹¬ c›

end Serves

namespace Blames

variable {ε : Type u} {ω β α : Type v} {Q : ω → Prop} {e : ε}

/-- The request asks for nothing, and the handler ends. -/
theorem nothing {b : β} : Blames e (.ok none : Except ε (Option ω)) (.ok b) Q :=
  iff_of_false (fun h => nomatch h) fun ⟨_, h, _⟩ => nomatch h

/-- The request asks for an operation. -/
theorem read {op : ω} {handler : Except ε β} (h : handler = .error e ↔ Q op) :
    Blames e (.ok (some op)) handler Q := by
  refine h.trans ⟨fun hq => ⟨op, rfl, hq⟩, fun ⟨op', h', hq⟩ => ?_⟩
  obtain rfl := Option.some.inj (Except.ok.inj h')
  exact hq

/-- Reading the request does not fail with the error. -/
theorem bind {x : Except ε α} {request : α → Except ε (Option ω)} {handler : α → Except ε β}
    (hx : x ≠ .error e) (h : ∀ a, Blames e (request a) (handler a) Q) :
    Blames e (x >>= request) (x >>= handler) Q := by
  cases x with
  | error e' =>
    refine iff_of_false (fun he => hx ?_) fun ⟨_, h, _⟩ => nomatch h
    exact congrArg Except.error (Except.error.inj he)
  | ok a => exact h a

theorem ite {c : Prop} [Decidable c] {request request' : Except ε (Option ω)}
    {handler handler' : Except ε β} (h : c → Blames e request handler Q)
    (h' : ¬ c → Blames e request' handler' Q) :
    Blames e (if c then request else request') (if c then handler else handler') Q := by
  split
  · exact h ‹c›
  · exact h' ‹¬ c›

end Blames
