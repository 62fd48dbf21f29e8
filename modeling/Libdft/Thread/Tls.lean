import Libdft.Thread.Isolation

/-!
# The register spill refines per-thread storage

Pin has no thread-local storage, so libdft keeps each thread's context behind a pointer in a
spilled register (lines 52–58). Spec §9 gives what that stands for: storage keyed by thread,
created at thread start, dropped at thread finish, and rewritten only by the thread's own
syscalls. `Tls` is that abstract machine, and `World.abs` reads it off a world. From every
reachable world, each allowed notification of the register-spill machine, fault or not, is
the abstract machine's step on the abstraction; over a whole schedule, the two runs agree.
-/

namespace Libdft

/-- Per-thread storage: each thread's own syscall context, if it has one, and the shared tag
store. -/
structure Tls where
  ctx : Tid → Option SyscallCtx
  tagmap : Tagmap

namespace Tls

/-- One notification on per-thread storage. A thread whose allocation failed has no context,
and its syscalls fault on the missing one. -/
def step (T : SyscallDescTable) (s : Tls) : Event → Except Fault Tls
  | .threadStart t blk =>
    .ok { s with ctx := Function.update s.ctx t (blk.map fun _ => ThreadCtx.zero.syscallCtx) }
  | .threadFini t => .ok { s with ctx := Function.update s.ctx t none }
  | .syscallEntry t nr get aux =>
    match s.ctx t with
    | some c =>
      let r := sysenterSave T nr get aux c s.tagmap
      .ok ⟨Function.update s.ctx t (some r.1), r.2⟩
    | none => .error .nullDeref
  | .syscallExit t ret aux =>
    match s.ctx t with
    | some c =>
      (sysexitSave T ret aux c s.tagmap).map fun r => ⟨Function.update s.ctx t (some r.1), r.2⟩
    | none => .error .nullDeref

/-- A sequence of notifications, up to the first fault. -/
def run (T : SyscallDescTable) (s : Tls) : List Event → Except Fault Tls
  | [] => .ok s
  | e :: es => (s.step T e).bind fun s' => s'.run T es

end Tls

namespace World

variable {T : SyscallDescTable} {w w' : World} {e : Event}

/-- The per-thread storage a world implements: a live thread's context is the block its
register names. -/
def abs (w : World) : Tls :=
  ⟨fun t => if w.phase t = .idle then none else w.m.syscallCtxOf t, w.m.tagmap⟩

/-! ### One step -/

/-- After an allowed step, the abstraction differs from the old one at most at the acting
thread. -/
private theorem map_abs_of_ok (hi : Inv w) (ha : w.Allowed e) (h : w.step T e = .ok w') :
    (w.step T e).map abs =
      .ok ⟨Function.update w.abs.ctx e.tid (w'.abs.ctx e.tid), w'.m.tagmap⟩ := by
  rw [h]
  refine congrArg (fun s => Except.ok s) (congrArg (Tls.mk · _) (funext fun u => ?_))
  by_cases hu : u = e.tid
  · subst hu; rw [Function.update_same]; rfl
  · rw [Function.update_noteq hu]
    simp only [abs, step_phase_ne h hu]
    split
    · rfl
    · next hl =>
      obtain ⟨hp, hh⟩ := hi.frame ha h hu hl
      simp only [Machine.syscallCtxOf, hp, hh]

/-- From a reachable world, an allowed notification is the abstract step on the abstraction,
faults included. -/
theorem step_abs (hw : Reachable T w) (ha : w.Allowed e) :
    (w.step T e).map abs = w.abs.step T e := by
  have hi := inv_reachable hw
  cases e with
  | threadStart t blk =>
    rw [map_abs_of_ok (T := T) hi ha rfl]
    cases blk with
    | none => simp [abs, Tls.step, Machine.syscallCtxOf, Event.tid, hi.heap_zero]
    | some a =>
      simp only [abs, Tls.step, Machine.syscallCtxOf, Event.tid, Machine.threadAlloc_some]
      rw [Function.update_same, Function.update_same, Function.update_same]
      simp
  | threadFini t =>
    have ht : w.phase t ≠ .idle := by rw [show w.phase t = _ from ha]; nofun
    have h := (by rw [step, hi.threadFree_eq ht]; rfl : w.step T (.threadFini t) = .ok _)
    rw [map_abs_of_ok hi ha h]
    simp [abs, Tls.step, Event.tid]
  | syscallEntry t nr get aux =>
    have ht : w.phase t ≠ .idle := by rw [show w.phase t = _ from ha]; nofun
    by_cases h0 : w.m.threadCtxPtr t = 0
    · have hn : w.abs.ctx t = none := by
        simp [abs, ht, Machine.syscallCtxOf, h0, hi.heap_zero]
      rw [step, Machine.sysenterSave_eq, h0]
      simp only [Tls.step, hn]
      rfl
    · obtain ⟨tc, htc, hd⟩ := hi.deref_ok ht h0
      have hc : w.abs.ctx t = some tc.syscallCtx := by simp [abs, ht, Machine.syscallCtxOf, htc]
      have h := (by rw [step, Machine.sysenterSave_eq, hd]; rfl :
        w.step T (.syscallEntry t nr get aux) = .ok _)
      rw [map_abs_of_ok hi ha h]
      simp only [Tls.step, hc]
      simp [abs, Event.tid, Machine.syscallCtxOf, Machine.writeBack]
  | syscallExit t ret aux =>
    have hs : w.phase t = .inSyscall := ha
    have ht : w.phase t ≠ .idle := by rw [hs]; nofun
    obtain ⟨tc, htc, hd⟩ := hi.deref_ok ht (hi.ptr_ne_zero_of_inSyscall hs)
    have hc : w.abs.ctx t = some tc.syscallCtx := by simp [abs, ht, Machine.syscallCtxOf, htc]
    simp only [Tls.step, hc, show w.abs.tagmap = w.m.tagmap from rfl]
    cases hx : Libdft.sysexitSave T ret aux tc.syscallCtx w.m.tagmap with
    | error f =>
      rw [step, Machine.sysexitSave_eq, hd]
      simp only [Except.bind, hx]
      rfl
    | ok r =>
      have h := (by rw [step, Machine.sysexitSave_eq, hd]; simp only [Except.bind, hx]; rfl :
        w.step T (.syscallExit t ret aux) = .ok _)
      rw [map_abs_of_ok hi ha h]
      show _ = Except.ok _
      simp [abs, Event.tid, Machine.syscallCtxOf, Machine.writeBack]

/-! ### Whole schedules -/

/-- Along any schedule Pin may deliver from a reachable world, the register-spill machine
and per-thread storage run alike, up to the same first fault. -/
theorem run_abs (hw : Reachable T w) (es : List Event) (hs : Schedule T w es) :
    (w.run T es).map abs = w.abs.run T es := by
  induction es generalizing w with
  | nil => rfl
  | cons e es ih =>
    obtain ⟨ha, hn⟩ := hs
    rw [run, Tls.run, ← step_abs hw ha]
    cases h : w.step T e with
    | error => rfl
    | ok w' => exact ih (.step hw ha h) (hn w' h)

/-- Two threads start with fresh blocks; thread 0 reads ten bytes into a buffer at `4096`
through a capturing descriptor, and thread 1 finishes between its enter and its exit. -/
theorem run_abs_read_two_threads :
    let T : SyscallDescTable := ⟨1, by decide, by decide,
      fun _ => ⟨3, 1, 0, fun i => if i.val = 1 then 10 else 0, none, none⟩⟩
    let w := World.init (fun _ => 0) (fun _ => true)
    let es : List Event := [.threadStart 0 (some 8), .threadStart 1 (some 16),
      .syscallEntry 0 0 (fun i => if i = 1 then 4096 else 10) 0, .threadFini 1,
      .syscallExit 0 10 0]
    Reachable T w ∧ Schedule T w es ∧ (w.run T es).map abs = w.abs.run T es := by
  intro T w es
  have hs : Schedule T w es :=
    ⟨⟨rfl, fun a ha => by cases ha; exact ⟨by decide, rfl⟩⟩, fun w₁ h₁ => by
      cases h₁
      refine ⟨⟨rfl, fun a ha => by cases ha; exact ⟨by decide, rfl⟩⟩, fun w₂ h₂ => ?_⟩
      cases h₂
      refine ⟨rfl, fun w₃ h₃ => ?_⟩
      cases h₃
      refine ⟨rfl, fun w₄ h₄ => ?_⟩
      cases h₄
      exact ⟨rfl, fun _ _ => trivial⟩⟩
  exact ⟨.init _ _, hs, run_abs (.init _ _) es hs⟩

end World

end Libdft
