import Xernel.Integrity

/-!
# Authority over other processes

What a process does leaves the others alone, except for waking those that wait. `LOG_READ`, `KILL`
and `CAP_GRANT` reach one other process each, through a `Process` capability in the caller's table.
A frame that is freed while it is mapped breaks this: once it holds a page table of another process,
the process that still maps it writes there.
-/

namespace Xernel

variable {plat : Platform} {k k' : Kernel} {a b : Core} {act : Activity} {out : Option ℕ} {i : ℕ}
  {q q' : Process} {e : Event}

/-! ## Records -/

/-- What a call through a `Process` capability may change about the process it names: `LOG_READ` takes
from its log, `KILL` ends it, and `CAP_GRANT` copies a capability of the caller into an empty slot. -/
inductive Scheduler.Reaches (s : Scheduler) (q : Process) : Activity → Process → Prop
  | logRead {args : Args} (hpid : s.Names args.rdi.toNat q.pid) (n : ℕ) :
      s.Reaches q (.call .logRead args) { q with logBuf := q.logBuf.drop n }
  | kill {args : Args} (hpid : s.Names args.rdi.toNat q.pid) :
      s.Reaches q (.call .kill args) { q with exitCode := args.rsi.toNat, state := .done }
  | capGrant {args : Args} {cap : CapEntry} {caps : CNode} (hpid : s.Names args.rdi.toNat q.pid)
      (hcap : s.cur.caps.slot args.rsi.toNat = some cap)
      (hempty : q.caps.slot args.rdx.toNat = none)
      (hcopy : caps.slot args.rdx.toNat = some cap)
      (hother : ∀ slot ≠ args.rdx.toNat, caps.slot slot = q.caps.slot slot) :
      s.Reaches q (.call .capGrant args) { q with caps }

/-- The record of a process that is not running changes by waking up or by a call that reaches it. -/
lemma ProcStep.other (h : ProcStep a b act out i q q') (hi : i ≠ a.sched.current) :
    q' = q ∨ (∃ reason, q.state = .blocked reason) ∧ q' = { q with state := .ready } ∨
      a.sched.Reaches q act q' := by
  cases h with
  | same => exact .inl rfl
  | woken hblocked => exact .inr (.inl ⟨⟨_, hblocked⟩, rfl⟩)
  | own hcur => exact absurd hcur hi
  | logTaken hact hpid =>
    subst hact
    exact .inr (.inr (.logRead hpid _))
  | killed hact hpid =>
    subst hact
    exact .inr (.inr (.kill hpid))
  | granted hact hres hpid hcap hins =>
    subst hact
    refine .inr (.inr (.capGrant hpid hcap (CNode.slot_eq_none_of_insert hins) ?_ fun slot hne => ?_))
    · rw [CNode.slot_insert hins, if_pos rfl]
    · rw [CNode.slot_insert hins, if_neg hne.symm]

/-! ## Page tables -/

/-- The frame holds a table of the space `l4`, of its own half or of the shared one. -/
def PageTables.HoldsTable (pt : PageTables) (l4 f : ℕ) : Prop :=
  ∃ level idx, (pt.user l4).tables level idx = some f ∨ pt.kernel.tables level idx = some f

lemma PageTables.HoldsTable.isTable {pt : PageTables} {l4 f : ℕ} (h : pt.HoldsTable l4 f) :
    pt.IsTable f := by
  obtain ⟨level, idx, h | h⟩ := h
  · exact ⟨some l4, level, idx, h⟩
  · exact ⟨none, level, idx, h⟩

/-- From `m` to `m'` the page table of `l4` stays as it is: the mapping functions make no entry in it,
and nobody else writes to the frames of RAM that hold it. -/
structure Mm.SamePageTable (regions : List Region) (l4 : ℕ) (m m' : Mm) : Prop where
  user : m'.pt.user l4 = m.pt.user l4
  kernel : m'.pt.kernel = m.pt.kernel
  bytes : ∀ a, m.pt.HoldsTable l4 (pageDown a) → IsRam regions (pageDown a) → m'.mem a = m.mem a

/-- The mapping functions make no entry in the page table of a process that is not running. -/
lemma SpaceInv.tables_same (h : SpaceInv plat k) (hdisj : plat.RegionsDisjoint)
    (hreach : Reachable (xernel plat) k) (hs : Xernel.step plat k e = some (k', out))
    (hi : i ≠ k.sched.current) (hq : k.sched.procs[i]? = some q) :
    k'.mm.pt.user q.space = k.mm.pt.user q.space ∧ k'.mm.pt.kernel = k.mm.pt.kernel := by
  have hmm := h.mm hreach hs
  have hne : q.space ≠ k.cpu.cr3 := by
    rw [(reachable_onThread hreach hs).cr3]
    exact fun heq => hi (h.distinct _ _ _ _ hq (Scheduler.getElem?_current _) heq)
  exact ⟨hmm.user_same hdisj h.run (h.live i q hq) hne, hmm.kernel_same⟩

/-- In runs that free no mapped frame, no step writes to the frames that hold the page table of a
process that is not running. -/
lemma pageTable_same {ts : List KernelStep} (hplat : plat.WellFormed) (hrun : Run (xernel plat) ts k)
    (hgood : ∀ t ∈ ts, t.pre.freesMapped t.event = false) (hs : Xernel.step plat k e = some (k', out))
    (hrun' : Run (xernel plat) (ts ++ [⟨k, e, out, k'⟩]) k')
    (hgood' : ∀ t ∈ ts ++ [⟨k, e, out, k'⟩], t.pre.freesMapped t.event = false)
    (hi : i ≠ k.sched.current) (hq : k.sched.procs[i]? = some q) :
    k.mm.SamePageTable plat.regions q.space k'.mm := by
  have hreach : Reachable (xernel plat) k := ⟨ts, hrun⟩
  obtain ⟨huser, hkernel⟩ := (spaceInv_run hplat.regions hrun).tables_same hplat.regions hreach hs hi hq
  refine ⟨huser, hkernel, fun a ht hram => ?_⟩
  have hapart := tablesApart_run hplat hrun hgood _ ht.isTable hram
  by_contra hne
  rcases step_touches hplat.regions hreach hs hne with hfree | ⟨va, hok, hphys⟩ | hdma
  · -- a frame that is handed out is not free
    exact ((frameUse_run hplat hrun hgood).run.tracks hplat.regions).not_live hfree hapart.1
  · -- where the running process can write there is no table, after the step either
    have hlen : k'.sched.procs.length ≠ 1 := by
      have hle : k.sched.procs.length ≤ k'.sched.procs.length := (reachable_core hreach hs).length_le
      have hlt := (List.getElem?_eq_some_iff.mp hq).1
      have hcur := k.sched.current_lt
      omega
    obtain ⟨p, hp, hstep⟩ := (reachable_core hreach hs).stays (Scheduler.getElem?_current k.sched)
    have hsees : k'.Sees k.sched.current va a := by
      obtain ⟨leaf, hleaf, hacc, -⟩ := Mm.userPageOk_iff.mp hok
      rw [(reachable_onThread hreach hs).cr3.trans hstep.identity.space.symm] at hleaf hphys
      exact ⟨p, hp, Mm.userPageOk_iff.mpr ⟨leaf, hleaf, hacc, by simp⟩, hphys⟩
    have hholds : k'.mm.pt.HoldsTable q.space (pageDown a) := by
      rw [PageTables.HoldsTable, huser, hkernel]
      exact ht
    have ht' : k'.mm.pt.IsTable (pageDown a) := hholds.isTable
    obtain ⟨p', -, hmaps⟩ := hsees.maps hplat hrun' hlen
    exact (tablesApart_run hplat hrun' hgood' _ ht' hram).2.1 _ hmaps
  · exact hapart.2.2 hdma

/-! ## No ambient authority -/

/-- The step leaves every other process in the table with its page table, and with its record up to a
wake-up, unless it is a call that reaches that process through a `Process` capability. -/
def LeavesOthers (plat : Platform) (t : KernelStep) : Prop :=
  ∀ (i : ℕ) (q : Process), i ≠ t.pre.sched.current → t.pre.sched.procs[i]? = some q →
    ∃ q', t.post.sched.procs[i]? = some q' ∧ q'.space = q.space ∧
      t.pre.mm.SamePageTable plat.regions q.space t.post.mm ∧
      (q' = q ∨ (∃ reason, q.state = .blocked reason) ∧ q' = { q with state := .ready } ∨
        t.pre.sched.Reaches q (t.pre.activity t.event) q')

/-- In every run in which no `FRAME_ALLOC` frees what it has mapped, every step leaves the processes
that do not run alone. -/
theorem no_ambient_authority {ts : List KernelStep} (hplat : plat.WellFormed)
    (h : Run (xernel plat) ts k) (hts : ∀ t ∈ ts, t.pre.freesMapped t.event = false) :
    ∀ t ∈ ts, LeavesOthers plat t := by
  intro t ht i q hi hq
  obtain ⟨before, hrun, hgood, hs, hrun', hgood'⟩ := h.split_of_mem hts ht
  -- the record by what a step does to one process, the tables by what nobody can write to
  obtain ⟨q', hq', hstep⟩ := (reachable_core ⟨before, hrun⟩ hs).stays hq
  exact ⟨q', hq', hstep.identity.space, pageTable_same hplat hrun hgood hs hrun' hgood' hi hq,
    hstep.other hi⟩

/-- A parent kills its child through the handle in slot 6: of the child only state and exit code
change. -/
theorem no_ambient_authority_kill :
    ∃ k k' out q, Reachable (xernel smallPlatform) k ∧ k.sched.current = 0 ∧
      Xernel.step smallPlatform k (.call .kill 6 9) = some (k', out) ∧
      k.sched.procs[1]? = some q ∧ q.exitCode = 0 ∧
      k'.sched.procs[1]? = some { q with exitCode := 9, state := .done } ∧
      k.mm.SamePageTable smallPlatform.regions q.space k'.mm := by
  have hfacts : (trace smallPlatform [.resume, .call .spawn 0 6, .call .kill 6 9]).bind (fun r =>
      r.1[2]?.map fun t => (r.1.all fun t => !t.pre.freesMapped t.event, t.pre.sched.current,
        (t.pre.sched.procs[1]?).map (·.exitCode), (t.post.sched.procs[1]?).map (·.exitCode))) =
      some (true, 0, some 0, some 9) := by decide +kernel
  obtain ⟨r, hr, hlast⟩ := Option.bind_eq_some_iff.mp hfacts
  obtain ⟨t, ht, heq⟩ := Option.map_eq_some_iff.mp hlast
  simp only [Prod.mk.injEq, Option.map_eq_some_iff, List.all_eq_true, Bool.not_eq_true'] at heq
  obtain ⟨hgood, hcur, ⟨q, hq, hcode⟩, q', hq', hcode'⟩ := heq
  have hevent : t.event = .call .kill 6 9 := (Option.some.inj (trace_event hr ht)).symm
  have hmem := List.mem_of_getElem? ht
  obtain ⟨hreach, hs⟩ := (trace_run hr).mem_step hmem
  obtain ⟨q₁, hq₁, -, hsame, hcases⟩ := no_ambient_authority smallPlatform_wellFormed (trace_run hr)
    hgood t hmem 1 q (by rw [hcur]; decide) hq
  obtain rfl : q₁ = q' := Option.some.inj (hq₁.symm.trans hq')
  have hact : t.pre.activity (.call .kill 6 9) = .call .kill ⟨6, 9, 0, 0, 0, 0⟩ := rfl
  rw [hevent] at hs hcases
  rw [hact] at hcases
  -- the exit code has changed, so the call did reach the child
  rcases hcases with rfl | ⟨-, rfl⟩ | hkill
  · rw [hcode] at hcode'; cases hcode'
  · rw [hcode] at hcode'; cases hcode'
  · cases hkill
    exact ⟨t.pre, t.post, t.out, q, hreach, hcur, hs, hq, hcode, hq', hsame⟩

/-- A `FRAME_ALLOC` for a slot in use frees its frame and leaves it mapped, the next `SPAWN` takes the
frame for the child's top-level table, and `CAP_IDENTIFY` writes to it. -/
theorem ambient_authority :
    ¬ ∀ (plat : Platform) (ts : List KernelStep) (k : Kernel), plat.WellFormed →
      Run (xernel plat) ts k → ∀ t ∈ ts, LeavesOthers plat t := by
  intro hall
  have hfacts : (trace smallPlatform [.resume, .call .frameAlloc 1 0 0x80_8000, .call .spawn 0 6,
      .call .capIdentify 0 0x7000_0000]).bind (fun r => r.1[3]?.map fun t => (t.pre.sched.current,
        (t.pre.sched.procs[1]?).map (fun q => (q.space, (t.pre.mm.pt.user q.space).tables 4 0)),
        t.pre.mm.mem 0x11_a000, t.post.mm.mem 0x11_a000)) =
      some (0, some (0x11_a000, some 0x11_a000), 0, 10) := by decide +kernel
  obtain ⟨r, hr, hlast⟩ := Option.bind_eq_some_iff.mp hfacts
  obtain ⟨t, ht, heq⟩ := Option.map_eq_some_iff.mp hlast
  simp only [Prod.mk.injEq, Option.map_eq_some_iff] at heq
  obtain ⟨hcur, ⟨q, hq, hspace, htable⟩, hpre, hpost⟩ := heq
  obtain ⟨q', -, -, hsame, -⟩ := hall smallPlatform r.1 r.2 smallPlatform_wellFormed (trace_run hr) t
    (List.mem_of_getElem? ht) 1 q (by rw [hcur]; decide) hq
  -- the freed frame is the top-level table of the child
  have hbyte := hsame.bytes 0x11_a000 ⟨4, 0, .inl (by rw [htable]; decide)⟩
    ⟨_, List.mem_singleton.mpr rfl, by decide, by decide⟩
  rw [hpre, hpost] at hbyte
  exact absurd hbyte (by decide)

end Xernel
