import Mathlib.Data.List.Basic
import Mathlib.Tactic.Common

/-!
# Runs of labelled transition systems

A system is a set of initial states and a partial step function that also emits an output.
`Run T ts s` records a whole execution: the transitions `ts` taken, oldest first, and the
state `s` they end in. Safety properties are proved with `Run.invariant` (no condition on the
steps) and `Run.invariant_of` (every step meets a condition); properties that relate two
moments of a run use `Run.split` and `Run.preserved_after`.
-/

/-- Initial states and a partial, output-emitting step function. -/
structure TransitionSystem (σ ε ο : Type*) where
  init : σ → Prop
  step : σ → ε → Option (σ × ο)

/-- One step of a run: the state it starts in, its label, its output and the next state. -/
structure Transition (σ ε ο : Type*) where
  pre : σ
  event : ε
  out : ο
  post : σ

variable {σ ε ο : Type*}

/-- The executions of `T`: the transitions taken, oldest first, and the state reached. -/
inductive Run (T : TransitionSystem σ ε ο) : List (Transition σ ε ο) → σ → Prop
  | start {s : σ} (h : T.init s) : Run T [] s
  | next {ts : List (Transition σ ε ο)} {s s' : σ} {e : ε} {o : ο} (h : Run T ts s)
      (hs : T.step s e = some (s', o)) : Run T (ts ++ [⟨s, e, o, s'⟩]) s'

/-- A state some run ends in. -/
def Reachable (T : TransitionSystem σ ε ο) (s : σ) : Prop :=
  ∃ ts, Run T ts s

/-- Cutting `ts ++ [u]` at an element: the element is the last one, or lies in `ts`. -/
theorem List.snoc_eq_append_cons {α : Type*} {ts a b : List α} {t u : α}
    (h : ts ++ [u] = a ++ t :: b) :
    (ts = a ∧ u = t ∧ b = []) ∨ ∃ b', b = b' ++ [u] ∧ ts = a ++ t :: b' := by
  rcases List.eq_nil_or_concat b with rfl | ⟨b', y, rfl⟩
  · obtain ⟨hts, hu⟩ := List.append_inj' h rfl
    exact Or.inl ⟨hts, by simpa using hu, rfl⟩
  · have h' : ts ++ [u] = (a ++ t :: b') ++ [y] := by simpa using h
    obtain ⟨hts, hu⟩ := List.append_inj' h' rfl
    obtain rfl : u = y := by simpa using hu
    exact Or.inr ⟨b', by simp, hts⟩

/-- The transitions taken on the events `es` from `s` on, if all of them are enabled in turn. -/
def TransitionSystem.replay (T : TransitionSystem σ ε ο) (s : σ) :
    List ε → Option (List (Transition σ ε ο) × σ)
  | [] => some ([], s)
  | e :: es =>
    match T.step s e with
    | none => none
    | some (s', o) => (T.replay s' es).map fun r => (⟨s, e, o, s'⟩ :: r.1, r.2)

/-- The transitions of a replay are labelled with the replayed events. -/
theorem TransitionSystem.replay_events {T : TransitionSystem σ ε ο} {s : σ} {es : List ε}
    {r : List (Transition σ ε ο) × σ} (h : T.replay s es = some r) :
    r.1.map Transition.event = es := by
  induction es generalizing s r with
  | nil =>
    obtain rfl := Option.some.inj h
    rfl
  | cons e es ih =>
    rw [replay] at h
    split at h
    · cases h
    next s' o hs =>
      obtain ⟨r', hr', rfl⟩ := Option.map_eq_some_iff.mp h
      rw [List.map_cons, ih hr']

namespace Run

variable {T : TransitionSystem σ ε ο} {ts : List (Transition σ ε ο)} {s : σ}

/-- The step rule under a condition `C` on the steps taken: what holds initially and is kept
by every step that meets `C` holds at the end of every run whose steps all meet `C`. -/
theorem invariant_of {I : σ → Prop} {C : σ → ε → Prop} (hinit : ∀ s, T.init s → I s)
    (hstep : ∀ s e s' o, Reachable T s → I s → C s e → T.step s e = some (s', o) → I s')
    (h : Run T ts s) (hC : ∀ t ∈ ts, C t.pre t.event) : I s := by
  induction h with
  | start hi => exact hinit _ hi
  | @next ts s s' e o hrun hs ih =>
    have hpre : I s := ih fun t ht => hC t (List.mem_append_left _ ht)
    have hlast : C s e := hC ⟨s, e, o, s'⟩ (by simp)
    exact hstep s e s' o ⟨ts, hrun⟩ hpre hlast hs

/-- `Run.invariant_of` for an invariant and a condition that also speak of the transitions taken
before. -/
theorem invariant_along {I : List (Transition σ ε ο) → σ → Prop}
    {C : List (Transition σ ε ο) → σ → ε → Prop} (hinit : ∀ s, T.init s → I [] s)
    (hstep : ∀ ts s e s' o, Run T ts s → I ts s → C ts s e → T.step s e = some (s', o) →
      I (ts ++ [⟨s, e, o, s'⟩]) s')
    (h : Run T ts s) (hC : ∀ a t b, ts = a ++ t :: b → C a t.pre t.event) : I ts s := by
  induction h with
  | start hi => exact hinit _ hi
  | @next ts s s' e o hrun hs ih =>
    have hpre : I ts s := ih fun a t b hts => hC a t (b ++ [⟨s, e, o, s'⟩]) (by simp [hts])
    have hlast : C ts s e := hC ts ⟨s, e, o, s'⟩ [] rfl
    exact hstep ts s e s' o hrun hpre hlast hs

/-- What holds initially and is kept by every step holds at the end of every run. -/
theorem invariant {I : σ → Prop} (hinit : ∀ s, T.init s → I s)
    (hstep : ∀ s e s' o, Reachable T s → I s → T.step s e = some (s', o) → I s')
    (h : Run T ts s) : I s :=
  invariant_of (C := fun _ _ => True) hinit (fun s e s' o hr hi _ => hstep s e s' o hr hi) h
    (fun _ _ => trivial)

/-- A run can be cut at any of its transitions: the part before it is a run, the transition is
a step of the system, and the part up to and including it is a run. -/
theorem split {a b : List (Transition σ ε ο)} {t : Transition σ ε ο} (h : Run T ts s)
    (hts : ts = a ++ t :: b) :
    Run T a t.pre ∧ T.step t.pre t.event = some (t.post, t.out) ∧ Run T (a ++ [t]) t.post := by
  induction h generalizing a b t with
  | start => simp at hts
  | @next ts s s' e o hrun hs ih =>
    rcases List.snoc_eq_append_cons hts with ⟨rfl, rfl, rfl⟩ | ⟨b', rfl, hts'⟩
    · exact ⟨hrun, hs, hrun.next hs⟩
    · exact ih hts'

/-- Every transition of a run is a step of the system from a reachable state. -/
theorem mem_step {t : Transition σ ε ο} (h : Run T ts s) (ht : t ∈ ts) :
    Reachable T t.pre ∧ T.step t.pre t.event = some (t.post, t.out) := by
  obtain ⟨a, b, hts⟩ := List.append_of_mem ht
  obtain ⟨hpre, hstep, _⟩ := h.split hts
  exact ⟨⟨a, hpre⟩, hstep⟩

/-- The part of a run before one of its transitions, and the part up to and including it, meet what
all transitions of the run meet. -/
theorem split_of_mem {C : Transition σ ε ο → Prop} {t : Transition σ ε ο} (h : Run T ts s)
    (hC : ∀ u ∈ ts, C u) (ht : t ∈ ts) :
    ∃ a, Run T a t.pre ∧ (∀ u ∈ a, C u) ∧ T.step t.pre t.event = some (t.post, t.out) ∧
      Run T (a ++ [t]) t.post ∧ ∀ u ∈ a ++ [t], C u := by
  obtain ⟨a, b, hts⟩ := List.append_of_mem ht
  obtain ⟨hpre, hstep, hpost⟩ := h.split hts
  refine ⟨a, hpre, fun u hu => hC u (by simp [hts, hu]), hstep, hpost, fun u hu => hC u ?_⟩
  rcases List.mem_append.mp hu with hu | hu
  · simp [hts, hu]
  · simp [hts, List.mem_singleton.mp hu]

/-- What holds after a transition and is kept by every later transition of the run holds
before and after each of these, and at the end of the run. -/
theorem preserved_after {P : σ → Prop} {a b : List (Transition σ ε ο)} {t : Transition σ ε ο}
    (h : Run T ts s) (hts : ts = a ++ t :: b)
    (hkeep : ∀ u ∈ b, T.step u.pre u.event = some (u.post, u.out) → Reachable T u.pre →
      P u.pre → P u.post)
    (hP : P t.post) : (∀ u ∈ b, P u.pre ∧ P u.post) ∧ P s := by
  induction h generalizing b with
  | start => simp at hts
  | @next ts s s' e o hrun hs ih =>
    rcases List.snoc_eq_append_cons hts with ⟨rfl, rfl, rfl⟩ | ⟨b', rfl, hts'⟩
    · exact ⟨by simp, hP⟩
    · obtain ⟨hmid, hs'⟩ := ih hts' fun u hu => hkeep u (List.mem_append_left _ hu)
      have hnew : P s' := hkeep ⟨s, e, o, s'⟩ (by simp) hs ⟨ts, hrun⟩ hs'
      refine ⟨fun u hu => ?_, hnew⟩
      rcases List.mem_append.mp hu with hu | hu
      · exact hmid u hu
      · obtain rfl : u = ⟨s, e, o, s'⟩ := by simpa using hu
        exact ⟨hs', hnew⟩

/-- `Run.preserved_after` for a property that also speaks of the transitions taken since. -/
theorem preserved_along {Q : List (Transition σ ε ο) → σ → Prop} {a b : List (Transition σ ε ο)}
    {t : Transition σ ε ο} (h : Run T ts s) (hts : ts = a ++ t :: b) (hstart : Q [] t.post)
    (hstep : ∀ c, ∀ u ∈ b, T.step u.pre u.event = some (u.post, u.out) → Q c u.pre →
      Q (c ++ [u]) u.post) : Q b s := by
  induction h generalizing b with
  | start => simp at hts
  | @next ts s s' e o hrun hs ih =>
    rcases List.snoc_eq_append_cons hts with ⟨rfl, rfl, rfl⟩ | ⟨b', rfl, hts'⟩
    · exact hstart
    · have hQ : Q b' s := ih hts' fun c u hu => hstep c u (List.mem_append_left _ hu)
      exact hstep b' ⟨s, e, o, s'⟩ (by simp) hs hQ

/-- `Run.invariant_of` at every transition: the invariant holds before and after each. -/
theorem invariant_of_mem {I : σ → Prop} {C : σ → ε → Prop} (hinit : ∀ s, T.init s → I s)
    (hstep : ∀ s e s' o, Reachable T s → I s → C s e → T.step s e = some (s', o) → I s')
    (h : Run T ts s) (hC : ∀ t ∈ ts, C t.pre t.event) : ∀ t ∈ ts, I t.pre ∧ I t.post := by
  intro t ht
  obtain ⟨a, b, hts⟩ := List.append_of_mem ht
  obtain ⟨hpre, hs, _⟩ := h.split hts
  have hI : I t.pre := invariant_of hinit hstep hpre fun u hu => hC u (by simp [hts, hu])
  exact ⟨hI, hstep t.pre t.event t.post t.out ⟨a, hpre⟩ hI (hC t ht) hs⟩

/-- `Run.preserved_after` between two transitions given by their positions. -/
theorem preserved_between {P : σ → Prop} {m n : ℕ} {t u : Transition σ ε ο} (h : Run T ts s)
    (hmn : m < n) (ht : ts[m]? = some t) (hu : ts[n]? = some u)
    (hkeep : ∀ v ∈ ts, T.step v.pre v.event = some (v.post, v.out) → Reachable T v.pre →
      P v.pre → P v.post)
    (hP : P t.post) : P u.pre ∧ P u.post := by
  obtain ⟨hm, rfl⟩ := List.getElem?_eq_some_iff.mp ht
  obtain ⟨hn, rfl⟩ := List.getElem?_eq_some_iff.mp hu
  have hts : ts = ts.take m ++ ts[m] :: ts.drop (m + 1) := by simp
  refine (h.preserved_after hts (fun v hv => hkeep v (List.mem_of_mem_drop hv)) hP).1 _ ?_
  rw [List.mem_iff_getElem]
  exact ⟨n - (m + 1), by simp; omega, by simp [show m + 1 + (n - (m + 1)) = n by omega]⟩

/-- Replaying events continues a run. -/
theorem append_replay {es : List ε} {r : List (Transition σ ε ο) × σ} (h : Run T ts s)
    (hr : T.replay s es = some r) : Run T (ts ++ r.1) r.2 := by
  induction es generalizing ts s r with
  | nil =>
    obtain rfl := Option.some.inj hr
    simpa using h
  | cons e es ih =>
    rw [TransitionSystem.replay] at hr
    split at hr
    · cases hr
    next s' o hs =>
      obtain ⟨r', hr', rfl⟩ := Option.map_eq_some_iff.mp hr
      simpa using ih (h.next hs) hr'

end Run

/-! ## Parts of runs -/

namespace TransitionSystem

/-- A stretch of an execution of `T`, from one state to another: the transitions taken on the way. -/
inductive Path (T : TransitionSystem σ ε ο) (s : σ) : List (Transition σ ε ο) → σ → Prop
  | nil : Path T s [] s
  | snoc {ts : List (Transition σ ε ο)} {s' s'' : σ} {e : ε} {o : ο} (h : Path T s ts s')
      (hs : T.step s' e = some (s'', o)) : Path T s (ts ++ [⟨s', e, o, s''⟩]) s''

variable {T : TransitionSystem σ ε ο} {ts : List (Transition σ ε ο)} {s s' : σ}

/-- A run goes on along a path. -/
theorem Path.run {as : List (Transition σ ε ο)} (hrun : Run T as s) (h : T.Path s ts s') :
    Run T (as ++ ts) s' := by
  induction h with
  | nil => rwa [List.append_nil]
  | snoc h hs ih =>
    rw [← List.append_assoc]
    exact ih.next hs

/-- A path from a reachable state ends in one. -/
theorem Path.reachable (hs : Reachable T s) (h : T.Path s ts s') : Reachable T s' := by
  obtain ⟨as, hrun⟩ := hs
  exact ⟨as ++ ts, h.run hrun⟩

/-- Replaying events goes along a path. -/
theorem path_of_replay {es : List ε} {r : List (Transition σ ε ο) × σ}
    (hr : T.replay s es = some r) : T.Path s r.1 r.2 := by
  have hgo : ∀ (es : List ε) {s₁ : σ} {as : List (Transition σ ε ο)}
      {r : List (Transition σ ε ο) × σ}, T.Path s as s₁ → T.replay s₁ es = some r →
      T.Path s (as ++ r.1) r.2 := by
    intro es
    induction es with
    | nil =>
      intro s₁ as r h hr
      obtain rfl := Option.some.inj hr
      rwa [List.append_nil]
    | cons e es ih =>
      intro s₁ as r h hr
      rw [replay] at hr
      split at hr
      · cases hr
      next s₂ o hs =>
        obtain ⟨r', hr', rfl⟩ := Option.map_eq_some_iff.mp hr
        have := ih (h.snoc hs) hr'
        rwa [List.append_assoc, List.singleton_append] at this
  simpa using hgo es .nil hr

end TransitionSystem
