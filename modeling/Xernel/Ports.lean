import Xernel.System
import Xernel.CapTheorems

/-!
# Access to I/O ports

`authorizes_port` checks the `size.max(1)` port addresses from `port` on, while `port_in` and `port_out`
execute a four-byte access for every size other than 1 and 2. The two agree but for the sizes 0 and 3,
where the access reaches past what was checked.
-/

namespace Xernel

namespace CapEntry

/-- The first port of an `IoPort` capability. -/
def portBase (c : CapEntry) : ℕ := (c.object >>> 16) % 2 ^ 16

/-- The number of ports of an `IoPort` capability. -/
def portCount (c : CapEntry) : ℕ := c.object % 2 ^ 16

/-- All the port addresses `[lo, hi)` are in the range of this `IoPort` capability. -/
def CoversPorts (c : CapEntry) (lo hi : ℕ) : Prop :=
  c.capType = .ioPort ∧ ∀ x, lo ≤ x → x < hi → c.portBase ≤ x ∧ x < c.portBase + c.portCount

variable {c : CapEntry} {port size width : ℕ}

lemma authorizesPort_iff : c.authorizesPort port size = true ↔
    c.capType = .ioPort ∧ c.portBase ≤ port ∧ port + max size 1 ≤ c.portBase + c.portCount := by
  unfold authorizesPort
  by_cases htype : c.capType = .ioPort
  · rw [if_neg (not_not.mpr htype), Bool.and_eq_true, decide_eq_true_eq, decide_eq_true_eq]
    exact (and_iff_right htype).symm
  · rw [if_pos htype]
    exact iff_of_false Bool.false_ne_true fun h => htype h.1

/-- A capability covers the ports of an access if it authorizes one of that width. -/
lemma coversPorts_iff (hwidth : 1 ≤ width) :
    c.CoversPorts port (port + width) ↔ c.authorizesPort port width = true := by
  rw [authorizesPort_iff, CoversPorts, max_eq_left hwidth]
  constructor
  · rintro ⟨htype, hcovers⟩
    have hfirst := hcovers port le_rfl (by omega)
    have hlast := hcovers (port + width - 1) (by omega) (by omega)
    exact ⟨htype, hfirst.1, by omega⟩
  · rintro ⟨htype, hlo, hhi⟩
    exact ⟨htype, fun x hx hx' => by omega⟩

lemma authorizesPort_mono (hle : width ≤ max size 1) (h : c.authorizesPort port size = true) :
    c.authorizesPort port width = true := by
  rw [authorizesPort_iff] at h ⊢
  exact ⟨h.1, h.2.1, by omega⟩

end CapEntry

namespace CNode

variable {c : CNode} {port size width : ℕ}

lemma authorizesPort_iff_slot : c.authorizesPort port size = true ↔
    ∃ i cap, c.slot i = some cap ∧ cap.authorizesPort port size = true := by
  refine ⟨authorizesPort_eq_true, ?_⟩
  rintro ⟨i, cap, hslot, hauth⟩
  have hmem := slot_eq_some_iff_mem.mp ⟨i, hslot⟩
  exact List.any_eq_true.mpr ⟨some cap, hmem, (Option.any_eq_true _ _).mpr ⟨cap, rfl, hauth⟩⟩

/-- One capability covers all the ports of an access. -/
lemma exists_coversPorts_iff (hwidth : 1 ≤ width) :
    (∃ i cap, c.slot i = some cap ∧ cap.CoversPorts port (port + width)) ↔
      c.authorizesPort port width = true := by
  simp only [authorizesPort_iff_slot, CapEntry.coversPorts_iff hwidth]

lemma authorizesPort_mono (hle : width ≤ max size 1) (h : c.authorizesPort port size = true) :
    c.authorizesPort port width = true := by
  obtain ⟨i, cap, hslot, hauth⟩ := authorizesPort_iff_slot.mp h
  exact authorizesPort_iff_slot.mpr ⟨i, cap, hslot, CapEntry.authorizesPort_mono hle hauth⟩

end CNode

namespace Kernel

/-- The check of `size` bytes falls short of the access: a size of 0 or 3 is authorized by some
capability, and the four bytes that are accessed by none. -/
def FallsShort (caps : CNode) (port size : ℕ) : Prop :=
  (size = 0 ∨ size = 3) ∧ caps.authorizesPort port size = true ∧ caps.authorizesPort port 4 = false

/-- What is accessed is authorized whenever what is checked is. -/
lemma authorizesPort_portWidth_iff (caps : CNode) (port size : ℕ) :
    (caps.authorizesPort port size = true → caps.authorizesPort port (portWidth size) = true) ↔
      ¬ FallsShort caps port size := by
  unfold FallsShort
  by_cases hsize : size = 0 ∨ size = 3
  · have hwidth : portWidth size = 4 := by
      rcases hsize with rfl | rfl <;> rfl
    rw [hwidth]
    constructor
    · rintro h ⟨-, hauth, hnot⟩
      rw [h hauth] at hnot
      cases hnot
    · intro h hauth
      by_contra hnot
      exact h ⟨hsize, hauth, Bool.eq_false_of_not_eq_true hnot⟩
  · refine iff_of_true (CNode.authorizesPort_mono ?_) fun h => hsize h.1
    unfold portWidth
    split
    · omega
    split
    · omega
    · omega

lemma one_le_portWidth (size : ℕ) : 1 ≤ portWidth size := by
  unfold portWidth
  split
  · omega
  split
  · omega
  · omega

lemma sysPortIn_ports {k : Kernel} {port size : ℕ} {hw : Hw} {a : PortAccess} :
    (k.sysPortIn port size hw).1.dev.ports = k.dev.ports ++ [a] ↔
      k.sched.cur.caps.authorizesPort port size = true ∧
        a = ⟨false, port, portWidth size, hw.portValue % 2 ^ (8 * portWidth size)⟩ := by
  unfold sysPortIn
  split
  next hauth =>
    simp only [portAccess, List.append_cancel_left_eq, List.cons.injEq, and_true]
    exact ⟨fun h => ⟨hauth, h.symm⟩, fun h => h.2.symm⟩
  next hauth =>
    exact iff_of_false (fun h => by simpa using congrArg List.length h) fun h => hauth h.1

lemma sysPortOut_ports {k : Kernel} {port size value : ℕ} {a : PortAccess} :
    (k.sysPortOut port size value).1.dev.ports = k.dev.ports ++ [a] ↔
      k.sched.cur.caps.authorizesPort port size = true ∧
        a = ⟨true, port, portWidth size, value % 2 ^ (8 * portWidth size)⟩ := by
  unfold sysPortOut
  split
  next hauth =>
    simp only [portAccess, List.append_cancel_left_eq, List.cons.injEq, and_true]
    exact ⟨fun h => ⟨hauth, h.symm⟩, fun h => h.2.symm⟩
  next hauth =>
    exact iff_of_false (fun h => by simpa using congrArg List.length h) fun h => hauth h.1

/-- For every table of capabilities and every pair of arguments of `PORT_IN` and `PORT_OUT`: if the access
is carried out then one `IoPort` capability covers all the ports it touches, exactly if the check does not
fall short of it. -/
theorem portAccess_covered_iff (plat : Platform) (k : Kernel) (nr : UInt64) (args : Args) (hw : Hw)
    (hnr : Sys.decode nr = some .portIn ∨ Sys.decode nr = some .portOut) :
    (∀ a, (k.dispatch plat nr args hw).1.dev.ports = k.dev.ports ++ [a] →
      ∃ i cap, k.sched.cur.caps.slot i = some cap ∧ cap.CoversPorts a.port (a.port + a.width)) ↔
      ¬ FallsShort k.sched.cur.caps (args.rdi.toNat % 2 ^ 16) (args.rsi.toNat % 2 ^ 8) := by
  rw [← authorizesPort_portWidth_iff]
  generalize hport : args.rdi.toNat % 2 ^ 16 = port
  generalize hsize : args.rsi.toNat % 2 ^ 8 = size
  have hwidth := one_le_portWidth size
  have hports : ∃ write value, ∀ a, (k.dispatch plat nr args hw).1.dev.ports = k.dev.ports ++ [a] ↔
      k.sched.cur.caps.authorizesPort port size = true ∧
        a = ⟨write, port, portWidth size, value⟩ := by
    unfold dispatch
    rcases hnr with hnr | hnr
    · rw [hnr]
      dsimp only
      rw [hport, hsize]
      exact ⟨_, _, fun a => sysPortIn_ports⟩
    · rw [hnr]
      dsimp only
      rw [hport, hsize]
      exact ⟨_, _, fun a => sysPortOut_ports⟩
  obtain ⟨write, value, hports⟩ := hports
  constructor
  · intro h hauth
    exact (CNode.exists_coversPorts_iff hwidth).mp (h _ ((hports _).mpr ⟨hauth, rfl⟩))
  · intro h a ha
    obtain ⟨hauth, rfl⟩ := (hports a).mp ha
    exact (CNode.exists_coversPorts_iff hwidth).mpr (h hauth)

/-- The first process reads four bytes from the start of its port range. -/
theorem portAccess_covered_iff_first : ∃ k, boot smallPlatform = some k ∧
    (k.dispatch smallPlatform 15 ⟨0xc000, 4, 0, 0, 0, 0⟩ ⟨7, 0⟩).1.dev.ports =
      [⟨false, 0xc000, 4, 7⟩] ∧
    ∃ i cap, k.sched.cur.caps.slot i = some cap ∧ cap.CoversPorts 0xc000 (0xc000 + 4) := by
  have hfacts : (boot smallPlatform).map (fun k =>
      (k.dev.ports, (k.dispatch smallPlatform 15 ⟨0xc000, 4, 0, 0, 0, 0⟩ ⟨7, 0⟩).1.dev.ports)) =
      some ([], [⟨false, 0xc000, 4, 7⟩]) := by decide +kernel
  obtain ⟨k, hboot, hfacts⟩ := Option.map_eq_some_iff.mp hfacts
  obtain ⟨hbefore, hafter⟩ := Prod.mk.inj hfacts
  have hcovered := (portAccess_covered_iff smallPlatform k 15 ⟨0xc000, 4, 0, 0, 0, 0⟩ ⟨7, 0⟩
    (.inl rfl)).mpr fun h => absurd h.1 (by decide)
  refine ⟨k, hboot, hafter, hcovered ⟨false, 0xc000, 4, 7⟩ ?_⟩
  rw [hafter, hbefore]
  rfl

/-- With size 0 the first process reads four bytes from the last port of its range. -/
theorem not_portAccess_covered : ∃ k, boot smallPlatform = some k ∧
    (k.dispatch smallPlatform 15 ⟨0xffff, 0, 0, 0, 0, 0⟩ ⟨7, 0⟩).1.dev.ports =
      [⟨false, 0xffff, 4, 7⟩] ∧
    ¬ ∃ i cap, k.sched.cur.caps.slot i = some cap ∧ cap.CoversPorts 0xffff (0xffff + 4) := by
  have hfacts : (boot smallPlatform).map (fun k =>
      (k.sched.cur.caps.authorizesPort 0xffff 4,
        (k.dispatch smallPlatform 15 ⟨0xffff, 0, 0, 0, 0, 0⟩ ⟨7, 0⟩).1.dev.ports)) =
      some (false, [⟨false, 0xffff, 4, 7⟩]) := by decide +kernel
  obtain ⟨k, hboot, hfacts⟩ := Option.map_eq_some_iff.mp hfacts
  obtain ⟨hauth, hafter⟩ := Prod.mk.inj hfacts
  refine ⟨k, hboot, hafter, ?_⟩
  rw [CNode.exists_coversPorts_iff (by decide), hauth]
  exact Bool.false_ne_true

end Kernel
end Xernel
