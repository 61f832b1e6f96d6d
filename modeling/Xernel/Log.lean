import Xernel.Break
import Xernel.Lib.Ring
import Xernel.Lib.Checked

/-!
# The log of a process

`log_write` and `log_read` keep the last bytes a process wrote. A run of the kernel acts on the log of
a process through its own `WRITE` calls and the `LOG_READ` calls on it, and nothing else.
-/

namespace Xernel

variable {plat : Platform} {k k' : Kernel} {a b : Core} {e : Event} {act : Activity}
  {out : Option ℕ} {args : Args} {i : ℕ} {p : Process}

/-! ## The loop of `log_read` -/

/-- The `n` rounds from round `i` on, with the bounds check of `out[i]`. -/
def logReadLoop : ℕ → ℕ → List UInt8 → List UInt8 → Checked (List UInt8 × List UInt8)
  | 0, _, buf, out => .ok (out, buf)
  | n + 1, i, buf, out =>
    match buf with
    | [] => logReadLoop n (i + 1) [] out
    | b :: buf => do
      let out ← Checked.set out i b
      logReadLoop n (i + 1) buf out

/-- `log_read` on a log that holds `buf`: the output buffer, the log and the count. -/
def logReadInto (buf out : List UInt8) (max : ℕ) : Checked ((List UInt8 × List UInt8) × ℕ) := do
  let n := min max buf.length
  let r ← logReadLoop n 0 buf out
  pure (r, n)

lemma logReadLoop_eq {n i : ℕ} {buf out : List UInt8} (hn : n ≤ buf.length)
    (hout : i + n ≤ out.length) :
    logReadLoop n i buf out =
      .ok (out.take i ++ buf.take n ++ out.drop (i + n), buf.drop n) := by
  induction n generalizing i buf out with
  | zero =>
    unfold logReadLoop
    rw [List.take_zero, List.append_nil, List.drop_zero, Nat.add_zero, List.take_append_drop]
  | succ n ih =>
    cases buf with
    | nil => exact absurd hn (by rw [List.length_nil]; omega)
    | cons b buf =>
      rw [List.length_cons] at hn
      have hi : i < out.length := by omega
      have hlen : (out.set i b).length = out.length := List.length_set
      unfold logReadLoop
      dsimp only
      rw [Checked.set_of_lt hi, Checked.ok_bind, ih (by omega) (by rw [hlen]; omega)]
      have htake : (out.set i b).take (i + 1) = out.take i ++ [b] := by
        rw [List.set_eq_take_append_cons_drop, if_pos hi, List.take_append, List.length_take,
          Nat.min_eq_left hi.le, List.take_of_length_le (by rw [List.length_take]; omega),
          show i + 1 - i = 1 by omega, List.take_succ_cons, List.take_zero]
      rw [htake, List.drop_set_of_lt (by omega), List.take_succ_cons, List.drop_succ_cons,
        show i + 1 + n = i + (n + 1) by omega]
      simp

/-- With an output buffer of `max` bytes the loop stays inside it, and hands out the oldest bytes. -/
lemma logReadInto_eq {buf out : List UInt8} {max : ℕ} (hout : out.length = max) :
    logReadInto buf out max =
      .ok ((buf.take (min max buf.length) ++ out.drop (min max buf.length),
        buf.drop (min max buf.length)), min max buf.length) := by
  unfold logReadInto
  dsimp only
  rw [logReadLoop_eq (by omega) (by omega), Checked.ok_bind, Nat.zero_add, List.take_zero,
    List.nil_append]
  rfl

/-! ## Operations on a log in a run -/

/-- What an activity of the running process does to the log of process `i`. -/
def Kernel.logOps (k : Kernel) (i : ℕ) : Activity → List (Ring.Op UInt8)
  | .call .write args =>
    if i = k.sched.current ∧ (args.rdi.toNat = 1 ∨ args.rdi.toNat = 2) then
      ((k.userSlice args.rsi.toNat args.rdx.toNat).map Ring.Op.write).toList
    else []
  | .call .logRead args =>
    if ((k.currentProcessPid args.rdi.toNat).bind k.sched.indexOf) = some i ∧
        k.userSliceMut args.rsi.toNat (min args.rdx.toNat 65536) then
      [.read (min args.rdx.toNat 65536)]
    else []
  | _ => []

/-- What a run does to the log of process `i`. -/
def logOps (i : ℕ) (ts : List KernelStep) : List (Ring.Op UInt8) :=
  ts.flatMap fun t => t.pre.logOps i (t.pre.activity t.event)

lemma logOps_concat (i : ℕ) (ts : List KernelStep) (t : KernelStep) :
    logOps i (ts ++ [t]) = logOps i ts ++ t.pre.logOps i (t.pre.activity t.event) := by
  rw [logOps, List.flatMap_append, List.flatMap_singleton]
  rfl

/-- Nothing acts on the log of a process that is not in the table. -/
lemma Kernel.logOps_of_length_le (hi : k.sched.procs.length ≤ i) (act : Activity) :
    k.logOps i act = [] := by
  have hcur := k.sched.current_lt
  unfold logOps
  split
  · rw [if_neg]
    rintro ⟨rfl, -⟩
    omega
  · rw [if_neg]
    rintro ⟨hbind, -⟩
    obtain ⟨pid, -, hidx⟩ := Option.bind_eq_some_iff.mp hbind
    obtain ⟨p, hp, -⟩ := Scheduler.find_eq_of_indexOf hidx
    obtain ⟨hlt, -⟩ := List.getElem?_eq_some_iff.mp hp
    omega
  · rfl

lemma Created.logBuf {m : Mm} {pid : ℕ} (h : Created plat m pid p) : p.logBuf = [] := by
  obtain ⟨space, entry, envpUser, envpLen, heapBreak, rfl⟩ := h.eq_newProcess
  rfl

/-- A step with a `WRITE` call in it is a call of `sys_write`. -/
lemma write_step (hreach : Reachable (xernel plat) k) (hs : Xernel.step plat k e = some (k', out))
    (hact : k.activity e = .call .write args) :
    k'.core = (k.entered.sysWrite args.rdi.toNat args.rsi.toNat args.rdx.toNat).1.core := by
  obtain ⟨nr, hw, r, hd, rfl, -, hcore, -⟩ := reachable_dispatch hreach hs hact
  rw [Kernel.dispatch, hd] at hcore
  exact hcore

/-- A step with a `LOG_READ` call in it is a call of `sys_log_read`. -/
lemma logRead_step (hreach : Reachable (xernel plat) k)
    (hs : Xernel.step plat k e = some (k', out)) (hact : k.activity e = .call .logRead args) :
    k'.core = (k.entered.sysLogRead args.rdi.toNat args.rsi.toNat args.rdx.toNat).1.core ∧
      out = (k.entered.sysLogRead args.rdi.toNat args.rsi.toNat args.rdx.toNat).2 := by
  obtain ⟨nr, hw, r, hd, rfl, -, hcore, hout⟩ := reachable_dispatch hreach hs hact
  rw [Kernel.dispatch, hd] at hcore hout
  exact ⟨hcore, hout⟩

/-- The logs after a `WRITE`. -/
lemma Kernel.sysWrite_logBuf (k : Kernel) (args : Args) (hp : k.sched.procs[i]? = some p) :
    ((k.sysWrite args.rdi.toNat args.rsi.toNat args.rdx.toNat).1.sched.procs[i]?).map
        Process.logBuf =
      some ((k.logOps i (.call .write args)).foldl (Ring.Op.apply logBufCap) p.logBuf) := by
  unfold sysWrite logOps
  dsimp only
  cases hbuf : k.userSlice args.rsi.toNat args.rdx.toNat with
  | none =>
    dsimp only
    rw [hp]
    split <;> rfl
  | some buf =>
    dsimp only
    by_cases hfd : args.rdi.toNat = 1 ∨ args.rdi.toNat = 2
    · rw [if_pos hfd, logWrite, modifyCur, Scheduler.modifyCur, Scheduler.getElem?_modify, hp]
      by_cases hi : i = k.sched.current
      · rw [if_pos hi.symm, if_pos ⟨hi, hfd⟩]
        rfl
      · rw [if_neg (Ne.symm hi), if_neg fun h => hi h.1]
        rfl
    · rw [if_neg hfd, if_neg fun h => hfd h.2, hp]
      rfl

/-- The logs after a `LOG_READ`. -/
lemma Kernel.sysLogRead_logBuf (k : Kernel) (args : Args) (hp : k.sched.procs[i]? = some p) :
    ((k.sysLogRead args.rdi.toNat args.rsi.toNat args.rdx.toNat).1.sched.procs[i]?).map
        Process.logBuf =
      some ((k.logOps i (.call .logRead args)).foldl (Ring.Op.apply logBufCap) p.logBuf) := by
  unfold sysLogRead logOps
  dsimp only
  cases hpid : k.currentProcessPid args.rdi.toNat with
  | none =>
    dsimp only
    rw [Option.bind_none, if_neg (by simp), hp]
    rfl
  | some pid =>
    dsimp only
    rw [Option.bind_some]
    by_cases hbuf : k.userSliceMut args.rsi.toNat (min args.rdx.toNat 65536) = true
    · rw [if_pos hbuf]
      cases hidx : k.sched.indexOf pid with
      | none =>
        rw [logRead, hidx, if_neg (by simp)]
        exact congrArg (Option.map Process.logBuf) hp
      | some j =>
        obtain ⟨q, hq, -, hfind⟩ := Scheduler.find_eq_of_indexOf hidx
        rw [logRead, hidx, hfind]
        show ((k.sched.modify j _).procs[i]?).map _ = _
        rw [Scheduler.getElem?_modify, hp]
        by_cases hi : j = i
        · subst hi
          obtain rfl : q = p := Option.some.inj (hq.symm.trans hp)
          rw [if_pos rfl, if_pos ⟨rfl, hbuf⟩]
          show some (q.logBuf.drop (min _ _)) = some (q.logBuf.drop _)
          rcases Nat.le_total (min args.rdx.toNat 65536) q.logBuf.length with hle | hle
          · rw [Nat.min_eq_left hle]
          · rw [Nat.min_eq_right hle, List.drop_length, List.drop_eq_nil_of_le hle]
        · rw [if_neg hi, if_neg fun h => hi (Option.some.inj h.1)]
          rfl
    · rw [if_neg hbuf, if_neg fun h => hbuf h.2, hp]
      rfl

/-- The log of a process after a step: what the step's operations make of it, or the empty log of a
new process. -/
lemma logBuf_step (hreach : Reachable (xernel plat) k) (hs : Xernel.step plat k e = some (k', out))
    (hp : k'.sched.procs[i]? = some p) :
    (∃ q, k.sched.procs[i]? = some q ∧
      p.logBuf = (k.logOps i (k.activity e)).foldl (Ring.Op.apply logBufCap) q.logBuf) ∨
    (k.sched.procs.length ≤ i ∧ p.logBuf = []) := by
  have hcore := reachable_core hreach hs
  rcases hcore.proc hp with ⟨q, hq, -⟩ | ⟨hi, hnew⟩
  · refine .inl ⟨q, hq, ?_⟩
    have hq : k.sched.procs[i]? = some q := hq
    by_cases hother : ∀ args, k.activity e ≠ .call .write args ∧ k.activity e ≠ .call .logRead args
    · have hkeep : p.logBuf = q.logBuf :=
        CoreStep.field_getElem? (φ := Process.logBuf)
          (hcore.field (fun _ _ _ _ _ => rfl) (.inr hother) (.inl fun _ _ => rfl)) hq hp
      have hnone : k.logOps i (k.activity e) = [] := by
        unfold Kernel.logOps
        split
        next h => exact absurd h (hother _).1
        next h => exact absurd h (hother _).2
        next => rfl
      rw [hnone, hkeep]
      rfl
    · simp only [not_forall, not_and_or, not_not] at hother
      obtain ⟨args, hact | hact⟩ := hother
      · have hsched : k'.sched = _ := congrArg Core.sched (write_step hreach hs hact)
        have := k.entered.sysWrite_logBuf args hq
        rw [hsched] at hp
        rw [show (k.entered.sysWrite args.rdi.toNat args.rsi.toNat args.rdx.toNat).1.sched.procs[i]? =
          some p from hp] at this
        rw [hact]
        exact Option.some.inj this
      · have hsched : k'.sched = _ := congrArg Core.sched (logRead_step hreach hs hact).1
        have := k.entered.sysLogRead_logBuf args hq
        rw [hsched] at hp
        rw [show (k.entered.sysLogRead args.rdi.toNat args.rsi.toNat args.rdx.toNat).1.sched.procs[i]? =
          some p from hp] at this
        rw [hact]
        exact Option.some.inj this
  · exact .inr ⟨hi.ge, hnew.logBuf⟩

/-- The log of a process holds what is left of the operations on it, and there were none before it was
in the table. -/
lemma logBuf_run {ts : List KernelStep} (h : Run (xernel plat) ts k) :
    (∀ (i : ℕ) (p : Process), k.sched.procs[i]? = some p →
      p.logBuf = Ring.contents logBufCap (logOps i ts)) ∧
    ∀ i, k.sched.procs.length ≤ i → logOps i ts = [] := by
  induction h with
  | @start m₀ hinit =>
    refine ⟨fun i p hp => ?_, fun i _ => rfl⟩
    obtain ⟨m, q, hnew, hprocs, -⟩ := boot_core hinit
    have hp : m₀.core.sched.procs[i]? = some p := hp
    rw [hprocs] at hp
    cases i with
    | zero =>
      obtain rfl : q = p := Option.some.inj hp
      exact hnew.logBuf
    | succ i => cases hp
  | @next ts s s' e o hrun hs ih =>
    obtain ⟨hbuf, hnone⟩ := ih
    have hreach : Reachable (xernel plat) s := ⟨ts, hrun⟩
    refine ⟨fun i p hp => ?_, fun i hi => ?_⟩
    · rw [logOps_concat, Ring.contents, List.foldl_append]
      rcases logBuf_step hreach hs hp with ⟨q, hq, hlog⟩ | ⟨hi, hlog⟩
      · rw [hlog, hbuf i q hq]
        rfl
      · rw [hnone i hi, Kernel.logOps_of_length_le hi, hlog]
        rfl
    · have hle : s.sched.procs.length ≤ s'.sched.procs.length :=
        (reachable_core hreach hs).length_le
      have hi : s.sched.procs.length ≤ i := le_trans hle hi
      rw [logOps_concat, hnone i hi, Kernel.logOps_of_length_le hi, List.nil_append]

/-- A `LOG_READ` in a run hands the bytes to the caller. -/
lemma logRead_handsOut {max : ℕ} (hreach : Reachable (xernel plat) k)
    (hs : Xernel.step plat k e = some (k', out)) (hact : k.activity e = .call .logRead args)
    (hops : k.logOps i (k.activity e) = [.read max]) (hp : k.sched.procs[i]? = some p) :
    out = some (min max p.logBuf.length) ∧
      k'.mm = k.mm.writeUser k.cpu.cr3 args.rsi.toNat (p.logBuf.take max) := by
  obtain ⟨hcore, hout⟩ := logRead_step hreach hs hact
  have hmm : k'.mm = _ := congrArg Core.mm hcore
  rw [hmm, hout]
  rw [hact] at hops
  unfold Kernel.logOps at hops
  dsimp only at hops
  split at hops
  next hcond =>
    obtain ⟨hbind, hbuf⟩ := hcond
    obtain ⟨pid, hpid, hidx⟩ := Option.bind_eq_some_iff.mp hbind
    obtain ⟨q, hq, -, hfind⟩ := Scheduler.find_eq_of_indexOf hidx
    obtain rfl : q = p := Option.some.inj (hq.symm.trans hp)
    obtain rfl : min args.rdx.toNat 65536 = max := Ring.Op.read.inj (List.head_eq_of_cons_eq hops)
    have hpid : k.entered.currentProcessPid args.rdi.toNat = some pid := hpid
    have hbuf : k.entered.userSliceMut args.rsi.toNat (min args.rdx.toNat 65536) = true := hbuf
    have hidx : k.entered.sched.indexOf pid = some i := hidx
    have hfind : k.entered.sched.find pid = some q := hfind
    unfold Kernel.sysLogRead Kernel.logRead
    rw [hpid]
    dsimp only
    rw [if_pos hbuf, hidx, hfind]
    dsimp only
    have htake : q.logBuf.take (min (min args.rdx.toNat 65536) q.logBuf.length) =
        q.logBuf.take (min args.rdx.toNat 65536) := by
      rw [List.take_eq_take_iff]
      omega
    rw [htake, List.length_take]
    exact ⟨rfl, rfl⟩
  next => cases hops

/-! ## The stream -/

lemma logWrite_logBuf (hlen : k.sched.cur.logBuf.length ≤ logBufCap) (data : List UInt8) :
    (k.logWrite data).sched.cur.logBuf =
      (k.sched.cur.logBuf ++ data).rtake (min logBufCap (k.sched.cur.logBuf.length + data.length)) := by
  rw [← Ring.foldl_push_rtake (by decide) hlen]
  show (k.sched.modifyCur _).cur.logBuf = _
  rw [Scheduler.cur_modifyCur]
  rfl

lemma logWrite_append (k : Kernel) (x y : List UInt8) :
    k.logWrite (x ++ y) = (k.logWrite x).logWrite y := by
  unfold Kernel.logWrite Kernel.modifyCur
  rw [Scheduler.modifyCur_modifyCur]
  simp only [List.foldl_append]

/-- `log_read` on a process in the table, with an output buffer of the length it is told. -/
lemma logRead_eq {pid max : ℕ} {out : List UInt8} (hidx : k.sched.indexOf pid = some i)
    (hp : k.sched.procs[i]? = some p) (hout : out.length = max) :
    logReadInto p.logBuf out max =
        .ok ((p.logBuf.take (min max p.logBuf.length) ++ out.drop (min max p.logBuf.length),
          p.logBuf.drop (min max p.logBuf.length)), min max p.logBuf.length) ∧
      (k.logRead pid max).1 = p.logBuf.take (min max p.logBuf.length) ∧
      (k.logRead pid max).2.sched.procs[i]? =
        some { p with logBuf := p.logBuf.drop (min max p.logBuf.length) } := by
  refine ⟨logReadInto_eq hout, ?_⟩
  obtain ⟨q, hq, -, hfind⟩ := Scheduler.find_eq_of_indexOf hidx
  obtain rfl : q = p := Option.some.inj (hq.symm.trans hp)
  rw [Kernel.logRead, hidx, hfind]
  refine ⟨rfl, ?_⟩
  show (k.sched.modify i _).procs[i]? = _
  rw [Scheduler.getElem?_modify, if_pos rfl, hp]
  rfl

/-- The log is a bounded stream. A write leaves the last bytes of what was there and what is written,
however it is cut up; a read takes the oldest bytes, inside its output buffer; and over a run, what was
read from the log of a process followed by its contents is what the process wrote, but for bytes that
were dropped as the oldest of a full log. -/
theorem log_stream :
    (∀ (k : Kernel) (data : List UInt8), k.sched.cur.logBuf.length ≤ logBufCap →
      (k.logWrite data).sched.cur.logBuf = (k.sched.cur.logBuf ++ data).rtake
        (min logBufCap (k.sched.cur.logBuf.length + data.length))) ∧
    (∀ (k : Kernel) (x y : List UInt8), k.logWrite (x ++ y) = (k.logWrite x).logWrite y) ∧
    (∀ (k : Kernel) (pid i : ℕ) (p : Process) (max : ℕ) (out : List UInt8),
      k.sched.indexOf pid = some i → k.sched.procs[i]? = some p → out.length = max →
      logReadInto p.logBuf out max =
          .ok ((p.logBuf.take (min max p.logBuf.length) ++ out.drop (min max p.logBuf.length),
            p.logBuf.drop (min max p.logBuf.length)), min max p.logBuf.length) ∧
        (k.logRead pid max).1 = p.logBuf.take (min max p.logBuf.length) ∧
        (k.logRead pid max).2.sched.procs[i]? =
          some { p with logBuf := p.logBuf.drop (min max p.logBuf.length) }) ∧
    (∀ (plat : Platform) (ts : List KernelStep) (k : Kernel), Run (xernel plat) ts k →
      (∀ (i : ℕ) (p : Process), k.sched.procs[i]? = some p →
        p.logBuf = Ring.contents logBufCap (logOps i ts) ∧
        ∃ gone, Ring.Splits logBufCap (logOps i ts) gone) ∧
      ∀ t ∈ ts, ∀ (i max : ℕ) (args : Args) (p : Process),
        t.pre.activity t.event = .call .logRead args →
        t.pre.logOps i (t.pre.activity t.event) = [.read max] → t.pre.sched.procs[i]? = some p →
        t.out = some (min max p.logBuf.length) ∧
          t.post.mm = t.pre.mm.writeUser t.pre.cpu.cr3 args.rsi.toNat (p.logBuf.take max)) := by
  refine ⟨fun k data hlen => logWrite_logBuf hlen data, logWrite_append,
    fun k pid i p max out hidx hp hout => logRead_eq hidx hp hout,
    fun plat ts k hrun => ⟨fun i p hp => ⟨(logBuf_run hrun).1 i p hp, ?_⟩, ?_⟩⟩
  · exact Ring.stream (by decide) _
  · intro t ht i max args p hact hops hp
    obtain ⟨hreach, hs⟩ := hrun.mem_step ht
    exact logRead_handsOut hreach hs hact hops hp

end Xernel
