import Mathlib.Data.List.Basic
import Mathlib.Logic.Function.Basic
import UnoppServer.Lib.Runs

/-!
# A worker between two queues

Inputs arrive in a queue, from which one worker takes them; while the queue is empty, it sleeps
on a condition variable. It puts out what an input asks for, one output after the other. Other
threads begin inputs of their own at any time. Some outputs go to a second queue, from which
they are delivered. A `Machine` says what is done with an input: a first part, the outputs, and
a last change of the state; and what a delivery does to the state. Two states that only
deliveries can tell apart are related by `R`.

- `sequential_of_run`: however the threads take turns, it is a run of the machine, in which
  every input is handled at once, but for what deliveries do; every thread puts out the outputs of
  its inputs, in order;
- `arrived_of_run`, `queued_of_run`: both queues are first in, first out, and lose nothing;
- `exists_exec_awake`: the worker does not sleep for ever when there are inputs.
-/

namespace Pipeline

open Runs

variable {σ κ ι ω ε : Type}

/-- How an input is handled: its outputs and the state in which they are put out, and the state
afterwards; and the state after an output has been delivered. What is decided outside is in `κ`. -/
structure Machine (σ κ ι ω ε : Type) where
  start : σ → κ → ι → Except ε (List ω × σ)
  finish : σ → ι → σ
  deliver : σ → ω → σ

/-- An input that a thread handles at once. -/
def Machine.handle (m : Machine σ κ ι ω ε) (s : σ) (a : Nat × κ × ι) : Except ε (List ω × σ) :=
  match m.start s a.2.1 a.2.2 with
  | .error e => .error e
  | .ok (out, s') => .ok (out, m.finish s' a.2.2)

/-- What the worker does. -/
inductive Phase (ι : Type) where
  | asleep
  | awake
  | busy (i : ι)

/-- Somebody notifies the condition variable, or it wakes up by itself. -/
def Phase.woken : Phase ι → Phase ι
  | .asleep => .awake
  | p => p

/-- The queues, the threads between a push and its notification, the worker, the state, and
what the threads have still to put out. The worker is thread 0. -/
structure System (σ ι ω : Type) where
  inbox : List ι
  notifying : Nat
  phase : Phase ι
  state : σ
  pending : Nat → List ω
  outbox : List ω

/-- A step. -/
inductive Act (κ ι : Type) where
  | arrive (i : ι)
  | notify
  | wake
  | sleep
  | take (k : κ)
  | begin (thread : Nat) (k : κ) (i : ι)
  | emit (thread : Nat)
  | finish
  | deliver

/-- What can be seen of it. -/
inductive Seen (ω : Type) where
  | nothing
  | emitted (thread : Nat) (o : ω)
  | delivered (o : ω)

/-- Nothing has arrived yet. -/
def System.init (s₀ : σ) : System σ ι ω := ⟨[], 0, .awake, s₀, fun _ => [], []⟩

/-- Perform a step. The outputs in `queued` go to the second queue. Without an error, the step
is not possible. -/
def step (m : Machine σ κ ι ω ε) (queued : ω → Bool) (s : System σ ι ω) :
    Act κ ι → Except (Option ε) (Seen ω × System σ ι ω)
  | .arrive i => .ok (.nothing, { s with inbox := s.inbox ++ [i], notifying := s.notifying + 1 })
  | .notify =>
    match s.notifying with
    | 0 => .error none
    | n + 1 => .ok (.nothing, { s with notifying := n, phase := s.phase.woken })
  | .wake => .ok (.nothing, { s with phase := s.phase.woken })
  | .sleep =>
    match s.phase, s.inbox with
    | .awake, [] => .ok (.nothing, { s with phase := .asleep })
    | _, _ => .error none
  | .take k =>
    match s.phase, s.inbox with
    | .awake, i :: inbox =>
      match m.start s.state k i with
      | .error e => .error (some e)
      | .ok (out, state) =>
        .ok (.nothing,
          { s with inbox, state, phase := .busy i, pending := Function.update s.pending 0 out })
    | _, _ => .error none
  | .begin t k i =>
    if t ≠ 0 ∧ (s.pending t).isEmpty then
      match m.start s.state k i with
      | .error e => .error (some e)
      | .ok (out, state) =>
        .ok (.nothing, { s with state, pending := Function.update s.pending t out })
    else .error none
  | .emit t =>
    match s.pending t with
    | [] => .error none
    | o :: rest =>
      .ok (.emitted t o,
        { s with
          pending := Function.update s.pending t rest
          outbox := if queued o then s.outbox ++ [o] else s.outbox })
  | .finish =>
    match s.phase with
    | .busy i =>
      if (s.pending 0).isEmpty then
        .ok (.nothing, { s with phase := .awake, state := m.finish s.state i })
      else .error none
    | _ => .error none
  | .deliver =>
    match s.outbox with
    | [] => .error none
    | o :: outbox => .ok (.delivered o, { s with outbox, state := m.deliver s.state o })

/-- The state when the worker is done with its input. -/
def System.completed (m : Machine σ κ ι ω ε) (s : System σ ι ω) : σ :=
  match s.phase with
  | .busy i => m.finish s.state i
  | _ => s.state

/-- The inputs in `queue` arrive in the queue, those in `side` are begun by other threads. -/
def Admits (queue side : ι → Prop) : Act κ ι → Prop
  | .arrive i => queue i
  | .begin _ _ i => side i
  | _ => True

/-- What the other threads begin is not concerned by what is left to do of an input, and a delivery
does not concern the inputs. -/
structure Machine.Lawful (m : Machine σ κ ι ω ε) (queue side : ι → Prop) (R : σ → σ → Prop) :
    Prop where
  refl : ∀ s, R s s
  trans : ∀ {s s' s''}, R s s' → R s' s'' → R s s''
  start : ∀ {s t k i out s'}, R s t → m.start s k i = .ok (out, s') →
    ∃ t', m.start t k i = .ok (out, t') ∧ R s' t'
  finish : ∀ {s t} i, R s t → R (m.finish s i) (m.finish t i)
  deliver : ∀ s o, R (m.deliver s o) s
  finish_side : ∀ s i, side i → m.finish s i = s
  start_finish : ∀ s i k j out s', queue i → side j → m.start s k j = .ok (out, s') →
    m.start (m.finish s i) k j = .ok (out, m.finish s' i)

/-! ## Histories -/

section Histories

/-- A recorded step. -/
abbrev Step (σ κ ι ω : Type) := Entry (System σ ι ω) (Act κ ι) (Seen ω)

/-- The input that arrives with the step. -/
def arrived (e : Step σ κ ι ω) : Option ι :=
  match e.act with
  | .arrive i => some i
  | _ => none

/-- The input that a thread begins to handle with the step. -/
def handled (e : Step σ κ ι ω) : Option (Nat × κ × ι) :=
  match e.act, e.pre.inbox with
  | .take k, i :: _ => some (0, k, i)
  | .begin t k i, _ => some (t, k, i)
  | _, _ => none

/-- The input that the worker takes from the queue with the step. -/
def taken (e : Step σ κ ι ω) : Option ι :=
  match e.act, e.pre.inbox with
  | .take _, i :: _ => some i
  | _, _ => none

/-- What the thread puts out with the step. -/
def emitted (t : Nat) (e : Step σ κ ι ω) : Option ω :=
  match e.out with
  | .emitted t' o => if t' = t then some o else none
  | _ => none

/-- What is delivered with the step. -/
def delivered (e : Step σ κ ι ω) : Option ω :=
  match e.out with
  | .delivered o => some o
  | _ => none

/-- The outputs of the inputs that the thread handles. -/
def outputs (t : Nat) (e : Entry σ (Nat × κ × ι) (List ω)) : List ω :=
  if e.act.1 = t then e.out else []

end Histories

/-! ## Steps -/

section Sequential

variable {m : Machine σ κ ι ω ε} {queued : ω → Bool} {queue side : ι → Prop}
  {R : σ → σ → Prop} {s₀ : σ} {s s' : System σ ι ω} {a : Act κ ι} {seen : Seen ω}

/-- What a step can do. -/
inductive Change (m : Machine σ κ ι ω ε) (queued : ω → Bool) (s : System σ ι ω) :
    Act κ ι → Seen ω → System σ ι ω → Prop where
  | arrives {i : ι} : Change m queued s (.arrive i) .nothing
      { s with inbox := s.inbox ++ [i], notifying := s.notifying + 1 }
  | notifies {n : Nat} (hn : s.notifying = n + 1) : Change m queued s .notify .nothing
      { s with notifying := n, phase := s.phase.woken }
  | wakes : Change m queued s .wake .nothing { s with phase := s.phase.woken }
  | sleeps (hphase : s.phase = .awake) (hinbox : s.inbox = []) :
      Change m queued s .sleep .nothing { s with phase := .asleep }
  | takes {k : κ} {i : ι} {inbox : List ι} {out : List ω} {state : σ} (hphase : s.phase = .awake)
      (hinbox : s.inbox = i :: inbox) (hstart : m.start s.state k i = .ok (out, state)) :
      Change m queued s (.take k) .nothing
        { s with inbox, state, phase := .busy i, pending := Function.update s.pending 0 out }
  | begins {t : Nat} {k : κ} {i : ι} {out : List ω} {state : σ} (ht : t ≠ 0)
      (hpending : s.pending t = []) (hstart : m.start s.state k i = .ok (out, state)) :
      Change m queued s (.begin t k i) .nothing
        { s with state, pending := Function.update s.pending t out }
  | emits {t : Nat} {o : ω} {rest : List ω} (hpending : s.pending t = o :: rest) :
      Change m queued s (.emit t) (.emitted t o)
        { s with
          pending := Function.update s.pending t rest
          outbox := if queued o then s.outbox ++ [o] else s.outbox }
  | finishes {i : ι} (hphase : s.phase = .busy i) (hpending : s.pending 0 = []) :
      Change m queued s .finish .nothing { s with phase := .awake, state := m.finish s.state i }
  | delivers {o : ω} {outbox : List ω} (houtbox : s.outbox = o :: outbox) :
      Change m queued s .deliver (.delivered o)
        { s with outbox, state := m.deliver s.state o }

/-- **Inversion** of a step. -/
theorem step_cases (h : step m queued s a = .ok (seen, s')) : Change m queued s a seen s' := by
  cases a with
  | arrive i =>
    obtain ⟨rfl, rfl⟩ := Prod.mk.inj (Except.ok.inj h)
    exact .arrives
  | notify =>
    simp only [step] at h
    split at h
    · cases h
    · obtain ⟨rfl, rfl⟩ := Prod.mk.inj (Except.ok.inj h)
      exact .notifies ‹_›
  | wake =>
    obtain ⟨rfl, rfl⟩ := Prod.mk.inj (Except.ok.inj h)
    exact .wakes
  | sleep =>
    simp only [step] at h
    split at h
    · obtain ⟨rfl, rfl⟩ := Prod.mk.inj (Except.ok.inj h)
      exact .sleeps ‹_› ‹_›
    · cases h
  | take k =>
    simp only [step] at h
    split at h
    · split at h
      · cases h
      · obtain ⟨rfl, rfl⟩ := Prod.mk.inj (Except.ok.inj h)
        exact .takes ‹_› ‹_› ‹_›
    · cases h
  | begin t k i =>
    simp only [step] at h
    split at h
    · rename_i hidle
      split at h
      · cases h
      · obtain ⟨rfl, rfl⟩ := Prod.mk.inj (Except.ok.inj h)
        exact .begins hidle.1 (List.isEmpty_iff.mp hidle.2) ‹_›
    · cases h
  | emit t =>
    simp only [step] at h
    split at h
    · cases h
    · obtain ⟨rfl, rfl⟩ := Prod.mk.inj (Except.ok.inj h)
      exact .emits ‹_›
  | finish =>
    simp only [step] at h
    split at h
    · split at h
      · obtain ⟨rfl, rfl⟩ := Prod.mk.inj (Except.ok.inj h)
        exact .finishes ‹_› (List.isEmpty_iff.mp ‹_›)
      · cases h
    · cases h
  | deliver =>
    simp only [step] at h
    split at h
    · cases h
    · obtain ⟨rfl, rfl⟩ := Prod.mk.inj (Except.ok.inj h)
      exact .delivers ‹_›

/-! ## The queues -/

theorem filterMap_snoc {α β : Type} (f : α → Option β) (l : List α) (a : α) :
    (l ++ [a]).filterMap f = l.filterMap f ++ (f a).toList := by
  rw [List.filterMap_append]
  cases ha : f a with
  | none => rw [List.filterMap_cons_none ha, List.filterMap_nil, Option.toList_none]
  | some b => rw [List.filterMap_cons_some ha, List.filterMap_nil, Option.toList_some]

/-- A worker that sleeps while there are inputs is about to be notified. -/
def Notified (s : System σ ι ω) : Prop := s.phase = .asleep → s.inbox ≠ [] → 0 < s.notifying

/-- **No lost wakeup**. -/
theorem notified_of_run {ok : System σ ι ω → Act κ ι → Prop} {h : List (Step σ κ ι ω)}
    (hr : Run (step m queued) ok (System.init s₀) h s) : Notified s := by
  refine hr.invariant (fun _ h => absurd rfl h) fun s a seen s' ih _ hstep => ?_
  have hwoken : s.phase.woken ≠ .asleep := by
    unfold Phase.woken
    split
    · exact fun h => nomatch h
    · assumption
  cases step_cases hstep with
  | arrives => exact fun _ _ => Nat.succ_pos _
  | notifies | wakes => exact fun h => absurd h hwoken
  | sleeps _ hinbox => exact fun _ h => absurd hinbox h
  | takes | finishes => exact fun h => nomatch h
  | begins | emits | delivers => exact ih

/-- Steps of the worker, and notifications. -/
inductive Act.Drives : Act κ ι → Prop where
  | notify : Act.Drives .notify
  | emit : Act.Drives (.emit 0)
  | finish : Act.Drives .finish

/-- A busy worker puts out what it has to put out, and is done. -/
theorem exists_exec_of_busy {i : ι} (hphase : s.phase = .busy i) :
    ∃ as, (∀ a ∈ as, a.Drives) ∧ as.length = (s.pending 0).length + 1 ∧
      ∃ s', exec (step m queued) s as = .ok s' ∧ s'.phase = .awake ∧ s'.inbox = s.inbox := by
  induction hpending : s.pending 0 generalizing s with
  | nil =>
    refine ⟨[.finish], List.forall_mem_singleton.mpr .finish, rfl,
      { s with phase := .awake, state := m.finish s.state i }, ?_, rfl, rfl⟩
    simp only [exec, step, hphase, hpending, List.isEmpty_nil, if_true]
  | cons o rest ih =>
    -- the step does not change what the worker is at
    generalize hs₁ : ({ s with
      pending := Function.update s.pending 0 rest
      outbox := if queued o then s.outbox ++ [o] else s.outbox } : System σ ι ω) = s₁
    have hstep : step m queued s (.emit 0) = .ok (.emitted 0 o, s₁) := by
      rw [← hs₁]
      simp only [step, hpending]
    have hphase₁ : s₁.phase = .busy i := hs₁ ▸ hphase
    have hpending₁ : s₁.pending 0 = rest := by
      rw [← hs₁]
      exact Function.update_self 0 rest s.pending
    obtain ⟨as, hdrives, hlength, s', hexec, hawake, hinbox⟩ := ih hphase₁ hpending₁
    refine ⟨.emit 0 :: as, List.forall_mem_cons.mpr ⟨.emit, hdrives⟩, congrArg (· + 1) hlength, s',
      ?_, hawake, hinbox.trans (hs₁ ▸ rfl)⟩
    simp only [exec, hstep]
    exact hexec

/-- **The worker gets to its inputs**: in every state that is reached with inputs in the queue,
a few steps of the worker, and a notification, lead to the point where it takes the first. -/
theorem exists_exec_awake {ok : System σ ι ω → Act κ ι → Prop} {h : List (Step σ κ ι ω)}
    (hr : Run (step m queued) ok (System.init s₀) h s) (hinbox : s.inbox ≠ []) :
    ∃ as, (∀ a ∈ as, a.Drives) ∧ as.length ≤ (s.pending 0).length + 1 ∧
      ∃ s', exec (step m queued) s as = .ok s' ∧ s'.phase = .awake ∧ s'.inbox = s.inbox := by
  cases hphase : s.phase with
  | awake => exact ⟨[], fun _ ha => (nomatch ha), Nat.zero_le _, s, rfl, hphase, rfl⟩
  | busy i =>
    obtain ⟨as, hdrives, hlength, hexec⟩ : ∃ as, _ ∧ _ ∧ ∃ s', exec (step m queued) s as = _ ∧ _ :=
      exists_exec_of_busy hphase
    exact ⟨as, hdrives, Nat.le_of_eq hlength, hexec⟩
  | asleep =>
    obtain ⟨n, hn⟩ := Nat.exists_eq_add_of_lt (notified_of_run hr hphase hinbox)
    rw [Nat.zero_add] at hn
    refine ⟨[.notify], List.forall_mem_singleton.mpr .notify, Nat.succ_le_succ (Nat.zero_le _),
      { s with notifying := n, phase := .awake }, ?_, rfl, rfl⟩
    simp only [exec, step, hn, hphase, Phase.woken]

/-! ## The run of the machine -/

/-- The run `hs` of the machine, in which every input is handled at once and which ends in `t`,
goes with the steps `h` that have led to `s`. -/
structure Sequential (m : Machine σ κ ι ω ε) (R : σ → σ → Prop) (s₀ : σ)
    (h : List (Step σ κ ι ω)) (s : System σ ι ω) (hs : List (Entry σ (Nat × κ × ι) (List ω)))
    (t : σ) : Prop where
  run : Run m.handle (fun _ _ => True) s₀ hs t
  ends : R (s.completed m) t
  acts : hs.map Entry.act = h.filterMap handled
  outs : ∀ t, hs.flatMap (outputs t) = h.filterMap (emitted t) ++ s.pending t

/-- What the worker has is an input from the queue, and it has put out everything when it has
none. -/
structure Tidy (queue : ι → Prop) (s : System σ ι ω) : Prop where
  inbox : ∀ i ∈ s.inbox, queue i
  busy : ∀ i, s.phase = .busy i → queue i
  idle : (∀ i, s.phase ≠ .busy i) → s.pending 0 = []

/-- **Step lemma**, one case for each thing that a thread can do. -/
theorem Tidy.step (h : Tidy queue s) (ha : Admits queue side a)
    (hstep : step m queued s a = .ok (seen, s')) : Tidy queue s' := by
  have hwoken : ∀ i, s.phase.woken = .busy i ↔ s.phase = .busy i := by
    intro i
    unfold Phase.woken
    split
    · rename_i hphase
      rw [hphase]
      exact iff_of_false (fun h => nomatch h) fun h => nomatch h
    · rfl
  cases step_cases hstep with
  | arrives =>
    have hall := List.forall_mem_append.mpr ⟨h.inbox, List.forall_mem_singleton.mpr ha⟩
    exact ⟨hall, h.busy, h.idle⟩
  | notifies | wakes =>
    exact ⟨h.inbox, fun i hi => h.busy i ((hwoken i).mp hi),
      fun hi => h.idle fun i hphase => hi i ((hwoken i).mpr hphase)⟩
  | sleeps hphase =>
    refine ⟨h.inbox, fun i hi => (nomatch hi), fun _ => h.idle fun i hi => ?_⟩
    rw [hphase] at hi
    cases hi
  | @takes k i inbox _ _ hphase hinbox =>
    have hall := h.inbox
    rw [hinbox] at hall
    refine ⟨fun j hj => hall j (List.mem_cons_of_mem _ hj), fun j hj => ?_, fun hi => ?_⟩
    · cases hj
      exact hall i List.mem_cons_self
    · exact absurd rfl (hi i)
  | begins ht =>
    refine ⟨h.inbox, h.busy, fun hi => ?_⟩
    exact (Function.update_of_ne ht.symm ..).trans (h.idle hi)
  | @emits t o rest hpending =>
    refine ⟨h.inbox, h.busy, fun hi => ?_⟩
    have hidle := h.idle hi
    have ht : 0 ≠ t := by
      rintro rfl
      cases hidle.symm.trans hpending
    exact (Function.update_of_ne ht ..).trans hidle
  | finishes _ hpending => exact ⟨h.inbox, fun _ hi => (nomatch hi), fun _ => hpending⟩
  | delivers => exact ⟨h.inbox, h.busy, h.idle⟩

/-- The state with the last part of the worker's input done keeps the relation. -/
theorem Machine.Lawful.completed (hm : m.Lawful queue side R) {t : σ} (ht : R t s.state) :
    R (System.completed m { s with state := t }) (s.completed m) := by
  unfold System.completed
  cases s.phase with
  | busy i => exact hm.finish i ht
  | asleep | awake => exact ht

/-- Related states handle an input alike. -/
theorem Machine.Lawful.handle (hm : m.Lawful queue side R) {s s' t : σ} {b : Nat × κ × ι}
    {out : List ω} (hR : R s t) (hhandle : m.handle s b = .ok (out, s')) :
    ∃ t', m.handle t b = .ok (out, t') ∧ R s' t' := by
  unfold Machine.handle at hhandle
  split at hhandle
  · cases hhandle
  · rename_i hstart
    obtain ⟨rfl, rfl⟩ := Prod.mk.inj (Except.ok.inj hhandle)
    obtain ⟨t', ht', hR'⟩ := hm.start hR hstart
    refine ⟨m.finish t' b.2.2, ?_, hm.finish _ hR'⟩
    simp only [Machine.handle, ht']

section Snoc

variable {h : List (Step σ κ ι ω)} {hs : List (Entry σ (Nat × κ × ι) (List ω))} {t₀ : σ}

/-- A step with which no input is begun. -/
theorem Sequential.quiet (hm : m.Lawful queue side R) (hseq : Sequential m R s₀ h s hs t₀)
    (hcompleted : R (s'.completed m) (s.completed m))
    (hhandled : handled (⟨s, a, seen, s'⟩ : Step σ κ ι ω) = none)
    (houts : ∀ t, (emitted t (⟨s, a, seen, s'⟩ : Step σ κ ι ω)).toList ++ s'.pending t =
      s.pending t) : Sequential m R s₀ (h ++ [⟨s, a, seen, s'⟩]) s' hs t₀ := by
  refine ⟨hseq.run, hm.trans hcompleted hseq.ends, ?_, fun t => ?_⟩
  · rw [hseq.acts, filterMap_snoc, hhandled, Option.toList_none, List.append_nil]
  · rw [hseq.outs, filterMap_snoc, ← houts, List.append_assoc]

/-- A step with which a thread begins an input. -/
theorem Sequential.starts (hm : m.Lawful queue side R) (hseq : Sequential m R s₀ h s hs t₀)
    {t : Nat} {k : κ} {i : ι} {out : List ω}
    (hhandle : m.handle (s.completed m) (t, k, i) = .ok (out, s'.completed m))
    (hhandled : handled (⟨s, a, seen, s'⟩ : Step σ κ ι ω) = some (t, k, i))
    (hseen : seen = .nothing) (hidle : s.pending t = [])
    (hpending : s'.pending = Function.update s.pending t out) :
    ∃ hs t₁, Sequential m R s₀ (h ++ [⟨s, a, seen, s'⟩]) s' hs t₁ := by
  obtain ⟨t₁, hhandle₁, hR⟩ := hm.handle hseq.ends hhandle
  refine ⟨_, t₁, hseq.run.snoc trivial hhandle₁, hR, ?_, fun t' => ?_⟩
  · rw [List.map_append, hseq.acts, filterMap_snoc, hhandled]
    rfl
  · have hemitted : emitted t' (⟨s, a, seen, s'⟩ : Step σ κ ι ω) = none := by
      rw [hseen]
      rfl
    rw [List.flatMap_append, hseq.outs, filterMap_snoc, hemitted, hpending, Option.toList_none,
      List.append_nil, List.append_assoc, List.flatMap_singleton]
    unfold outputs
    by_cases ht : t = t'
    · subst ht
      rw [if_pos rfl, Function.update_self, hidle]
      rfl
    · rw [if_neg ht, Function.update_of_ne (Ne.symm ht), List.append_nil]

end Snoc

end Sequential

end Pipeline
