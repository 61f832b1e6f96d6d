import Xernel.Lib.Run
import Xernel.Userland.ServiceTheorems

/-!
# Which received frames reach the driver

All receive buffers that `net_rx_arm` hands to the card are the same buffer. The card fills them in the
order of the ring, one frame each, and counts them in the used ring; `net_rx_wait` returns what the
buffer holds once that count has caught up with the count of armed buffers. So a frame is returned only
if a buffer is armed when the one before it has been returned, and a wait is for a buffer that has not
been.
-/

namespace Xernel

/-- The receive queue, from both sides: how many buffers were armed and filled, and what is in the one
buffer behind them. -/
structure RxQueue (φ : Type) where
  posted : ℕ
  used : ℕ
  buffer : φ

/-- What happens to the queue. A wait is seen where it ends. -/
inductive RxEvent (φ : Type) where
  | arm
  | deliver (frame : φ)
  | wait

/-- The steps of the driver and of the card. A wait returns the buffer once all that were armed are
filled, and nothing when it times out before; arming panics when the count overflows. -/
def rxQueue (φ : Type) : TransitionSystem (RxQueue φ) (RxEvent φ) (Option φ) where
  init q := q.posted = 0 ∧ q.used = 0
  step q
    | .arm => if q.posted + 1 < 2 ^ 16 then some ({ q with posted := q.posted + 1 }, none) else none
    | .deliver frame =>
      if q.used < q.posted then some ({ q with used := q.used + 1, buffer := frame }, none) else none
    | .wait => some (q, if q.used = q.posted then some q.buffer else none)

/-- One step of the queue, in a run. -/
abbrev RxStep (φ : Type) := Transition (RxQueue φ) (RxEvent φ) (Option φ)

namespace RxQueue

variable {φ : Type} {q q' : RxQueue φ} {ts : List (RxStep φ)} {e : RxEvent φ} {out : Option φ}

/-- The frame that a step delivers. -/
def frameOf (t : RxStep φ) : Option φ :=
  match t.event with
  | .deliver frame => some frame
  | _ => none

/-- The frames that the card has delivered, in this order. -/
def delivered (ts : List (RxStep φ)) : List φ := ts.filterMap frameOf

/-- The frames that waits have returned, in this order. -/
def returned (ts : List (RxStep φ)) : List φ := ts.filterMap Transition.out

/-- The oldest frame that has been delivered and not returned. -/
def due (ts : List (RxStep φ)) : Option φ := (delivered ts)[(returned ts).length]?

/-- After the steps before it, a wait returns the oldest frame that has not been returned, and nothing
if there is none; and a frame is delivered into the buffer only if all before it have been returned. -/
def Served (before : List (RxStep φ)) (t : RxStep φ) : Prop :=
  (t.event = .wait → t.out = due before) ∧ ∀ frame, t.event = .deliver frame → due before = none

/-- Every frame is returned by one wait, in the order of delivery, before its buffer is overwritten. -/
def NoneSkipped (ts : List (RxStep φ)) : Prop :=
  ∀ before t after, ts = before ++ t :: after → Served before t

/-- After the steps before it, the driver arms a buffer only if all that were armed have been returned,
and waits only if one has not. -/
def InTurn (before : List (RxStep φ)) (q : RxQueue φ) : RxEvent φ → Prop
  | .arm => q.posted = (returned before).length
  | .deliver _ => True
  | .wait => (returned before).length < q.posted

/-- All steps of a run are in turn. -/
def AllInTurn (ts : List (RxStep φ)) : Prop :=
  ∀ before t after, ts = before ++ t :: after → InTurn before t.pre t.event

/-! ## Every run -/

lemma delivered_snoc (ts : List (RxStep φ)) (t : RxStep φ) :
    delivered (ts ++ [t]) = delivered ts ++ (frameOf t).toList := by
  rw [delivered, List.filterMap_append]
  cases h : frameOf t <;> simp [delivered, h]

lemma returned_snoc (ts : List (RxStep φ)) (t : RxStep φ) :
    returned (ts ++ [t]) = returned ts ++ t.out.toList := by
  rw [returned, List.filterMap_append]
  cases h : t.out <;> simp [returned, h]

/-- The count of the used ring, and what is in the buffer. -/
structure Inv (ts : List (RxStep φ)) (q : RxQueue φ) : Prop where
  used : (delivered ts).length = q.used
  used_le : q.used ≤ q.posted
  buffer : ∀ k, q.used = k + 1 → (delivered ts)[k]? = some q.buffer

lemma step_cases (hs : (rxQueue φ).step q e = some (q', out)) :
    (e = .arm ∧ q.posted + 1 < 2 ^ 16 ∧ q' = { q with posted := q.posted + 1 } ∧ out = none) ∨
    (∃ frame, e = .deliver frame ∧ q.used < q.posted ∧
      q' = { q with used := q.used + 1, buffer := frame } ∧ out = none) ∨
    (e = .wait ∧ q' = q ∧ out = if q.used = q.posted then some q.buffer else none) := by
  cases e with
  | arm =>
    obtain ⟨hlt, heq⟩ := Option.ite_none_right_eq_some.mp hs
    obtain ⟨hq, hout⟩ := Prod.mk.inj (Option.some.inj heq)
    exact .inl ⟨rfl, hlt, hq.symm, hout.symm⟩
  | deliver frame =>
    obtain ⟨hlt, heq⟩ := Option.ite_none_right_eq_some.mp hs
    obtain ⟨hq, hout⟩ := Prod.mk.inj (Option.some.inj heq)
    exact .inr (.inl ⟨frame, rfl, hlt, hq.symm, hout.symm⟩)
  | wait =>
    obtain ⟨hq, hout⟩ := Prod.mk.inj (Option.some.inj hs)
    exact .inr (.inr ⟨rfl, hq.symm, hout.symm⟩)

lemma Inv.step (h : Inv ts q) (hs : (rxQueue φ).step q e = some (q', out)) :
    Inv (ts ++ [⟨q, e, out, q'⟩]) q' := by
  have hsnoc := delivered_snoc ts ⟨q, e, out, q'⟩
  obtain ⟨rfl, -, rfl, rfl⟩ | ⟨frame, rfl, hlt, rfl, rfl⟩ | ⟨rfl, rfl, -⟩ := step_cases hs
  · rw [show frameOf _ = none from rfl, Option.toList_none, List.append_nil] at hsnoc
    exact ⟨by rw [hsnoc]; exact h.used, Nat.le_succ_of_le h.used_le, fun k hk => by
      rw [hsnoc]
      exact h.buffer k hk⟩
  · rw [show frameOf _ = some frame from rfl, Option.toList_some] at hsnoc
    refine ⟨?_, hlt, fun k hk => ?_⟩
    · rw [hsnoc, List.length_append, h.used]
      rfl
    · obtain rfl : q.used = k := Nat.succ.inj hk
      rw [hsnoc, ← h.used, List.getElem?_concat_length]
  · rw [show frameOf _ = none from rfl, Option.toList_none, List.append_nil] at hsnoc
    exact ⟨by rw [hsnoc]; exact h.used, h.used_le, fun k hk => by
      rw [hsnoc]
      exact h.buffer k hk⟩

theorem inv_run (h : Run (rxQueue φ) ts q) : Inv ts q := by
  induction h with
  | start hinit =>
    obtain ⟨hposted, hused⟩ := hinit
    exact ⟨hused.symm, by omega, fun k hk => by omega⟩
  | next hrun hs ih => exact ih.step hs

/-- A wait that returns for the `k`-th armed buffer returns the `k`-th frame. -/
lemma wait_returns {frame : φ} (h : Run (rxQueue φ) ts q)
    (hs : (rxQueue φ).step q .wait = some (q', some frame)) {k : ℕ} (hk : q.posted = k + 1) :
    (delivered ts)[k]? = some frame := by
  obtain ⟨heq, -⟩ | ⟨_, heq, -⟩ | ⟨-, -, hout⟩ := step_cases hs
  · cases heq
  · cases heq
  · obtain ⟨hused, hframe⟩ := Option.ite_none_right_eq_some.mp hout.symm
    rw [← Option.some.inj hframe]
    exact (inv_run h).buffer k (by omega)

/-- A buffer is armed on the queue exactly when it is on the card. -/
lemma arms_iff {n : Net} (hposted : n.rxPosted = q.posted) :
    (∃ q', (rxQueue φ).step q .arm = some (q', none)) ↔ netRxArm n = .ok n.armed := by
  rw [netRxArm_eq_ok, hposted]
  constructor
  · rintro ⟨q', hs⟩
    exact ⟨(Option.ite_none_right_eq_some.mp hs).1, rfl⟩
  · rintro ⟨hlt, -⟩
    exact ⟨_, if_pos hlt⟩

/-- A wait that returns is one on the card that has the `k`-th frame for the `k`-th buffer. -/
theorem netRxWait_returns {n : Net} {ts : List (RxStep (ℕ → UInt8))} {q q' : RxQueue (ℕ → UInt8)}
    {frame : ℕ → UInt8} {k : ℕ} (h : Run (rxQueue (ℕ → UInt8)) ts q)
    (hs : (rxQueue (ℕ → UInt8)).step q .wait = some (q', some frame)) (hk : q.posted = k + 1)
    (hposted : n.rxPosted = q.posted) (hrx : n.rx (k + 1) = (delivered ts)[k]?) (max : ℕ) :
    netRxWait n max = some ((List.range max).map frame) := by
  have hframe : n.rx n.rxPosted = some frame := by
    rw [hposted, hk, hrx]
    exact wait_returns h hs hk
  rw [netRxWait, hframe, Option.map_some]

/-! ## Runs in turn -/

/-- Of the armed buffers all but the last have been returned, each with its frame. -/
structure Turn (ts : List (RxStep φ)) (q : RxQueue φ) : Prop where
  in_order : returned ts <+: delivered ts
  returned_le : (returned ts).length ≤ q.used
  posted_le : q.posted ≤ (returned ts).length + 1

/-- Nothing is due when as many frames have been returned as buffers were filled. -/
lemma due_eq_none (h : Inv ts q) (hle : q.used ≤ (returned ts).length) : due ts = none :=
  List.getElem?_eq_none (h.used ▸ hle)

/-- A frame that is due is in the buffer. -/
lemma due_eq_some (h : Inv ts q) (hused : q.used = (returned ts).length + 1) :
    due ts = some q.buffer := h.buffer _ hused

lemma due_concat {frame : φ} (h : returned ts <+: delivered ts) (hdue : due ts = some frame) :
    returned ts ++ [frame] <+: delivered ts := by
  obtain ⟨rest, hrest⟩ := h
  rw [due, ← hrest, List.getElem?_append_right (Nat.le_refl _), Nat.sub_self] at hdue
  cases rest with
  | nil => cases hdue
  | cons first rest =>
    obtain rfl := Option.some.inj hdue
    exact ⟨rest, by rw [List.append_assoc]; exact hrest⟩

lemma Turn.step (h : Turn ts q) (hinv : Inv ts q) (hturn : InTurn ts q e)
    (hs : (rxQueue φ).step q e = some (q', out)) :
    Turn (ts ++ [⟨q, e, out, q'⟩]) q' ∧ Served ts ⟨q, e, out, q'⟩ := by
  have hle := h.returned_le
  have hposted := h.posted_le
  have hused := hinv.used_le
  have hsnoc := returned_snoc ts ⟨q, e, out, q'⟩
  have hdelivered : returned ts <+: delivered (ts ++ [⟨q, e, out, q'⟩]) := by
    rw [delivered_snoc]
    exact h.in_order.trans (List.prefix_append _ _)
  obtain ⟨rfl, -, rfl, rfl⟩ | ⟨frame, rfl, hlt, rfl, rfl⟩ | ⟨rfl, hq, rfl⟩ := step_cases hs
  · have hall : q.posted = (returned ts).length := hturn
    rw [Option.toList_none, List.append_nil] at hsnoc
    refine ⟨⟨?_, ?_, ?_⟩, fun heq => ?_, fun frame heq => ?_⟩
    · rw [hsnoc]
      exact hdelivered
    · rw [hsnoc]
      exact hle
    · rw [hsnoc]
      exact Nat.succ_le_succ (Nat.le_of_eq hall)
    · cases heq
    · cases heq
  · -- the buffer to fill is the only one that is out
    rw [Option.toList_none, List.append_nil] at hsnoc
    refine ⟨⟨?_, ?_, ?_⟩, fun heq => ?_, fun _ _ => due_eq_none hinv (by omega)⟩
    · rw [hsnoc]
      exact hdelivered
    · rw [hsnoc]
      exact Nat.le_succ_of_le hle
    · rw [hsnoc]
      exact hposted
    · cases heq
  · obtain rfl := hq.symm
    have hout : (returned ts).length < q.posted := hturn
    by_cases hfull : q.used = q.posted
    · rw [if_pos hfull, Option.toList_some] at hsnoc
      have hdue := due_eq_some hinv (by omega)
      refine ⟨⟨?_, ?_, ?_⟩, fun _ => ?_, fun frame heq => ?_⟩
      · rw [if_pos hfull, hsnoc, delivered_snoc]
        exact (due_concat h.in_order hdue).trans (List.prefix_append _ _)
      · rw [if_pos hfull, hsnoc, List.length_append, List.length_singleton]
        omega
      · rw [if_pos hfull, hsnoc, List.length_append, List.length_singleton]
        omega
      · rw [hdue]
        exact if_pos hfull
      · cases heq
    · rw [if_neg hfull, Option.toList_none, List.append_nil] at hsnoc
      rw [if_neg hfull] at hdelivered
      refine ⟨⟨?_, ?_, ?_⟩, fun _ => ?_, fun frame heq => ?_⟩
      · rw [if_neg hfull, hsnoc]
        exact hdelivered
      · rw [if_neg hfull, hsnoc]
        exact hle
      · rw [if_neg hfull, hsnoc]
        exact hposted
      · rw [due_eq_none hinv (by omega)]
        exact if_neg hfull
      · cases heq

/-- A run in turn, step by step. -/
theorem turn_run (h : Run (rxQueue φ) ts q) (hturn : AllInTurn ts) : Turn ts q ∧ NoneSkipped ts := by
  induction h with
  | start hinit =>
    obtain ⟨hposted, hused⟩ := hinit
    refine ⟨⟨List.prefix_refl _, Nat.zero_le _, ?_⟩, fun before t after heq => ?_⟩
    · rw [hposted]
      exact Nat.zero_le _
    · exact absurd heq.symm (List.append_ne_nil_of_right_ne_nil _ (List.cons_ne_nil _ _))
  | @next ts q q' e out hrun hs ih =>
    obtain ⟨hturn₁, hserved₁⟩ := ih fun before t after heq =>
      hturn before t (after ++ [⟨q, e, out, q'⟩]) (by rw [heq, List.append_assoc]; rfl)
    obtain ⟨hturn₂, hserved₂⟩ := hturn₁.step (inv_run hrun) (hturn ts ⟨q, e, out, q'⟩ [] rfl) hs
    refine ⟨hturn₂, fun before t after heq => ?_⟩
    rcases List.snoc_eq_append_cons heq with ⟨rfl, rfl, rfl⟩ | ⟨after', -, rfl⟩
    · exact hserved₂
    · exact hserved₁ before t after' rfl

/-! ## Out of turn -/

/-- A wait that comes too late for the frame that is due. -/
lemma missed {frame : φ} (h : Run (rxQueue φ) ts q) (hdue : due ts = some frame)
    (hne : q.used ≠ q.posted) : Run (rxQueue φ) (ts ++ [⟨q, .wait, none, q⟩]) q ∧
      ¬ NoneSkipped (ts ++ [⟨q, .wait, none, q⟩]) := by
  have hs : (rxQueue φ).step q .wait = some (q, none) := congrArg (fun o => some (q, o)) (if_neg hne)
  refine ⟨h.next hs, fun hserved => ?_⟩
  have hout : none = due ts := (hserved ts _ [] rfl).1 rfl
  rw [hdue] at hout
  cases hout

/-- The driver arms a second buffer while a frame or the first buffer is out: the card fills it, and the
next wait is too late for the frame that is due. -/
lemma skips_arm (h : Run (rxQueue φ) ts q) (hturn : AllInTurn ts)
    (hne : q.posted ≠ (returned ts).length)
    (hrun : Run (rxQueue φ) (ts ++ [⟨q, .arm, none, { q with posted := q.posted + 1 }⟩])
      { q with posted := q.posted + 1 }) :
    ∃ more q₂, Run (rxQueue φ)
        (ts ++ [⟨q, .arm, none, { q with posted := q.posted + 1 }⟩] ++ more) q₂ ∧
      ¬ NoneSkipped (ts ++ [⟨q, .arm, none, { q with posted := q.posted + 1 }⟩] ++ more) := by
  obtain ⟨⟨-, hle, hposted⟩, -⟩ := turn_run h hturn
  have hused := (inv_run h).used_le
  have hreturned := returned_snoc ts ⟨q, .arm, none, { q with posted := q.posted + 1 }⟩
  rw [Option.toList_none, List.append_nil] at hreturned
  by_cases hdue : q.used = (returned ts).length
  · -- the card fills one of the two buffers
    have hs : (rxQueue φ).step { q with posted := q.posted + 1 } (.deliver q.buffer) =
        some ({ q with posted := q.posted + 1, used := q.used + 1 }, none) :=
      if_pos (Nat.lt_succ_of_le hused)
    have hreturned' := returned_snoc (ts ++ [⟨q, .arm, none, { q with posted := q.posted + 1 }⟩])
      ⟨{ q with posted := q.posted + 1 }, .deliver q.buffer, none,
        { q with posted := q.posted + 1, used := q.used + 1 }⟩
    rw [Option.toList_none, List.append_nil, hreturned] at hreturned'
    have hframe := due_eq_some (inv_run (hrun.next hs)) (by rw [hreturned', ← hdue])
    obtain ⟨hrun', hskip⟩ := missed (hrun.next hs) hframe (by
      show q.used + 1 ≠ q.posted + 1
      omega)
    rw [List.append_assoc _ [_] [_]] at hrun' hskip
    exact ⟨_, _, hrun', hskip⟩
  · have hframe := due_eq_some (inv_run hrun) (by
      rw [hreturned]
      show q.used = _
      omega)
    obtain ⟨hrun', hskip⟩ := missed hrun hframe (by
      show q.used ≠ q.posted + 1
      omega)
    exact ⟨_, _, hrun', hskip⟩

/-- After the first step out of turn the card and the driver can go on so that a frame is skipped, or
returned twice. -/
lemma skips (h : Run (rxQueue φ) ts q) (hturn : AllInTurn ts)
    (hs : (rxQueue φ).step q e = some (q', out)) (hnot : ¬ InTurn ts q e) :
    ∃ more q₂, Run (rxQueue φ) (ts ++ [⟨q, e, out, q'⟩] ++ more) q₂ ∧
      ¬ NoneSkipped (ts ++ [⟨q, e, out, q'⟩] ++ more) := by
  have hrun := h.next hs
  obtain ⟨rfl, -, rfl, rfl⟩ | ⟨frame, rfl, -⟩ | ⟨rfl, hq, rfl⟩ := step_cases hs
  · exact skips_arm h hturn hnot hrun
  · exact absurd trivial hnot
  · -- the frame in the buffer has been returned before
    have hinv := inv_run h
    have hle := (turn_run h hturn).1.returned_le
    have hused := hinv.used_le
    have hall : ¬ (returned ts).length < q.posted := hnot
    rw [if_pos (by omega)] at hrun ⊢
    refine ⟨[], q', by rw [List.append_nil]; exact hrun, fun hserved => ?_⟩
    have hout : some q.buffer = due ts := (hserved ts _ [] (List.append_nil _)).1 rfl
    rw [due_eq_none hinv (by omega)] at hout
    cases hout

lemma AllInTurn.snoc {t : RxStep φ} (h : AllInTurn ts) (ht : InTurn ts t.pre t.event) :
    AllInTurn (ts ++ [t]) := by
  intro before u after heq
  rcases List.snoc_eq_append_cons heq with ⟨rfl, rfl, -⟩ | ⟨after', -, rfl⟩
  · exact ht
  · exact h before u after' rfl

/-- A receive that times out leaves its buffer armed, and the next one arms another. -/
lemma recvLoop_timeout {h : Host} {sock : Fin 4} {max fuel : ℕ} (hlt : h.net.rxPosted + 1 < 2 ^ 16)
    (hframe : h.net.frameAt 256 (h.net.rxPosted + 1) = none) :
    recvLoop sock max (fuel + 1) h = .ok ({ h with net := h.net.armed }, 0) := by
  have hwait : netRxWait h.net.armed 256 = none := hframe
  rw [recvLoop, netRxArm_eq_ok.mpr ⟨hlt, rfl⟩, Checked.ok_bind]
  dsimp only
  rw [hwait]
  rfl

end RxQueue

/-- As long as the driver arms and waits in turn, no frame is skipped; and after the first step out of
turn there is a way to go on in which one is. -/
theorem frames_received (φ : Type) :
    (∀ (ts : List (RxStep φ)) (q : RxQueue φ), Run (rxQueue φ) ts q → RxQueue.AllInTurn ts →
      RxQueue.NoneSkipped ts ∧ RxQueue.returned ts <+: RxQueue.delivered ts) ∧
    ∀ (ts : List (RxStep φ)) (q q' : RxQueue φ) (e : RxEvent φ) (out : Option φ),
      Run (rxQueue φ) ts q → RxQueue.AllInTurn ts → (rxQueue φ).step q e = some (q', out) →
      ¬ RxQueue.InTurn ts q e →
      ∃ more q₂, Run (rxQueue φ) (ts ++ [⟨q, e, out, q'⟩] ++ more) q₂ ∧
        ¬ RxQueue.NoneSkipped (ts ++ [⟨q, e, out, q'⟩] ++ more) := by
  refine ⟨fun ts q h hturn => ?_, fun ts q q' e out h hturn hs hnot => RxQueue.skips h hturn hs hnot⟩
  obtain ⟨hturn', hserved⟩ := RxQueue.turn_run h hturn
  exact ⟨hserved, hturn'.in_order⟩

/-- One exchange, with the frame 7. -/
theorem frames_received_exchange : ∃ ts q, Run (rxQueue ℕ) ts q ∧ RxQueue.NoneSkipped ts ∧
    RxQueue.returned ts = [7] := by
  have hrun : Run (rxQueue ℕ) ([] ++ [⟨⟨0, 0, 0⟩, .arm, none, ⟨1, 0, 0⟩⟩] ++
      [⟨⟨1, 0, 0⟩, .deliver 7, none, ⟨1, 1, 7⟩⟩] ++ [⟨⟨1, 1, 7⟩, .wait, some 7, ⟨1, 1, 7⟩⟩]) ⟨1, 1, 7⟩ :=
    (((Run.start (T := rxQueue ℕ) (s := ⟨0, 0, 0⟩) ⟨rfl, rfl⟩).next rfl).next rfl).next rfl
  have hnil : RxQueue.AllInTurn ([] : List (RxStep ℕ)) := fun before t after heq =>
    absurd heq.symm (List.append_ne_nil_of_right_ne_nil _ (List.cons_ne_nil _ _))
  have hturn := ((hnil.snoc (t := ⟨⟨0, 0, 0⟩, .arm, none, ⟨1, 0, 0⟩⟩) rfl).snoc
    (t := ⟨⟨1, 0, 0⟩, .deliver 7, none, ⟨1, 1, 7⟩⟩) trivial).snoc
    (t := ⟨⟨1, 1, 7⟩, .wait, some 7, ⟨1, 1, 7⟩⟩) Nat.one_pos
  exact ⟨_, _, hrun, ((frames_received ℕ).1 _ _ hrun hturn).1, rfl⟩

/-- A wait that times out, a second buffer, two frames: the first of them is overwritten. -/
theorem not_frames_received : ∃ ts q, Run (rxQueue ℕ) ts q ∧
    ts.map Transition.event = [.arm, .wait, .arm, .deliver 7, .deliver 8, .wait] ∧
    RxQueue.delivered ts = [7, 8] ∧ RxQueue.returned ts = [8] ∧ ¬ RxQueue.NoneSkipped ts := by
  have hrun : Run (rxQueue ℕ) ([] ++ [⟨⟨0, 0, 0⟩, .arm, none, ⟨1, 0, 0⟩⟩] ++
      [⟨⟨1, 0, 0⟩, .wait, none, ⟨1, 0, 0⟩⟩] ++ [⟨⟨1, 0, 0⟩, .arm, none, ⟨2, 0, 0⟩⟩] ++
      [⟨⟨2, 0, 0⟩, .deliver 7, none, ⟨2, 1, 7⟩⟩] ++ [⟨⟨2, 1, 7⟩, .deliver 8, none, ⟨2, 2, 8⟩⟩] ++
      [⟨⟨2, 2, 8⟩, .wait, some 8, ⟨2, 2, 8⟩⟩]) ⟨2, 2, 8⟩ :=
    ((((((Run.start (T := rxQueue ℕ) (s := ⟨0, 0, 0⟩) ⟨rfl, rfl⟩).next rfl).next rfl).next rfl).next
      rfl).next rfl).next rfl
  refine ⟨_, _, hrun, rfl, rfl, rfl, fun hserved => ?_⟩
  have hdue : some 7 = none := (hserved [⟨⟨0, 0, 0⟩, .arm, none, ⟨1, 0, 0⟩⟩,
    ⟨⟨1, 0, 0⟩, .wait, none, ⟨1, 0, 0⟩⟩, ⟨⟨1, 0, 0⟩, .arm, none, ⟨2, 0, 0⟩⟩,
    ⟨⟨2, 0, 0⟩, .deliver 7, none, ⟨2, 1, 7⟩⟩] _ _ rfl).2 8 rfl
  cases hdue

end Xernel
