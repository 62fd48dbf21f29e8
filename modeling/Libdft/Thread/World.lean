import Libdft.Thread.Machine

/-!
# Runs of many threads

Pin notifies each thread in order: start, then enter and exit alternately, then finish
(spec §5); the threads interleave arbitrarily. A `World` is the machine together with where
each thread is in that order and two ghost records: the block each thread's own
`thread_alloc` obtained, and the syscall context its last `sysenter_save` left. `calloc`
returns NULL or a block that is not live. Pin may go on notifying after `libdft_die`:
nothing here assumes the detach takes effect.
-/

namespace Libdft

/-- Where a thread is in its notification order. -/
inductive Phase where
  | idle
  | running
  | inSyscall
  deriving DecidableEq, Repr

/-- The syscall context `t`'s pointer names, if any. -/
def Machine.syscallCtxOf (m : Machine) (t : Tid) : Option SyscallCtx :=
  (m.heap (m.threadCtxPtr t)).map ThreadCtx.syscallCtx

/-- The machine and the ghost state of a run. -/
structure World where
  m : Machine
  phase : Tid → Phase
  /-- The pointer each thread's own `thread_alloc` stored. -/
  alloc : Tid → Nat
  /-- The syscall context each thread's last `sysenter_save` left. -/
  entered : Tid → Option SyscallCtx

namespace World

/-- Before any thread starts: no block is live, registers and tags are arbitrary. -/
def init (reg : Tid → Nat) (tm : Tagmap) : World :=
  ⟨⟨reg, fun _ => none, tm, false⟩, fun _ => .idle, fun _ => 0, fun _ => none⟩

/-- One notification, with the ghost updates. -/
def step (T : SyscallDescTable) (w : World) : Event → Except Fault World
  | .threadStart t blk => .ok
      { m := w.m.threadAlloc t blk
        phase := Function.update w.phase t .running
        alloc := Function.update w.alloc t (blk.getD 0)
        entered := w.entered }
  | .threadFini t => (w.m.threadFree t).map fun m =>
      { w with m := m, phase := Function.update w.phase t .idle }
  | .syscallEntry t nr get aux => (w.m.sysenterSave T t nr get aux).map fun m =>
      { w with m := m, phase := Function.update w.phase t .inSyscall
               entered := Function.update w.entered t (m.syscallCtxOf t) }
  | .syscallExit t ret aux => (w.m.sysexitSave T t ret aux).map fun m =>
      { w with m := m, phase := Function.update w.phase t .running }

/-- The ghost layer runs the machine's own step. -/
theorem step_m (T : SyscallDescTable) (w : World) (e : Event) :
    (w.step T e).map World.m = w.m.step T e := by
  cases e with
  | threadStart => rfl
  | threadFini t => simp only [step, Machine.step]; cases w.m.threadFree t <;> rfl
  | syscallEntry t nr get aux =>
    simp only [step, Machine.step]; cases w.m.sysenterSave T t nr get aux <;> rfl
  | syscallExit t ret aux =>
    simp only [step, Machine.step]; cases w.m.sysexitSave T t ret aux <;> rfl

section Inversion

variable {T : SyscallDescTable} {w w' : World} {t : Tid}

/-- A successful finish of `t` ran `thread_free` and made `t` idle. -/
theorem step_threadFini_ok (h : w.step T (.threadFini t) = .ok w') :
    ∃ m, w.m.threadFree t = .ok m ∧
      w' = { w with m := m, phase := Function.update w.phase t .idle } := by
  simp only [step] at h
  cases hm : w.m.threadFree t with
  | error => rw [hm] at h; cases h
  | ok m => rw [hm] at h; cases h; exact ⟨m, rfl, rfl⟩

/-- A successful enter of `t` read `t`'s block, wrote back what `sysenter_save` left in it,
and recorded that syscall context as `t`'s last enter. -/
theorem step_syscallEntry_eq {nr : Addrint} {get : Nat → Addrint} {aux : Nat}
    (h : w.step T (.syscallEntry t nr get aux) = .ok w') :
    ∃ tc, w.m.deref (w.m.threadCtxPtr t) = .ok tc ∧
      let r := sysenterSave T nr get aux tc.syscallCtx w.m.tagmap
      w' = { m := w.m.writeBack (w.m.threadCtxPtr t) ⟨r.1⟩ r.2
             phase := Function.update w.phase t .inSyscall
             alloc := w.alloc
             entered := Function.update w.entered t (some r.1) } := by
  simp only [step] at h
  cases hm : w.m.sysenterSave T t nr get aux with
  | error => rw [hm] at h; cases h
  | ok m' =>
    rw [hm] at h
    cases h
    obtain ⟨tc, hd, rfl⟩ := Machine.sysenterSave_ok hm
    refine ⟨tc, hd, ?_⟩
    simp [Machine.syscallCtxOf, Machine.writeBack]

/-- A successful enter of `t` went through `t`'s non-NULL block, rewrote only it and the tag
store, and recorded the syscall context it left. -/
theorem step_syscallEntry_ok {nr : Addrint} {get : Nat → Addrint} {aux : Nat}
    (h : w.step T (.syscallEntry t nr get aux) = .ok w') :
    w.m.threadCtxPtr t ≠ 0 ∧ ∃ tc tm, w' =
      { m := w.m.writeBack (w.m.threadCtxPtr t) tc tm
        phase := Function.update w.phase t .inSyscall
        alloc := w.alloc
        entered := Function.update w.entered t (some tc.syscallCtx) } := by
  obtain ⟨tc, hd, rfl⟩ := step_syscallEntry_eq h
  exact ⟨((Machine.deref_eq_ok_iff _ _ _).mp hd).1, _, _, rfl⟩

/-- A successful exit of `t` went through `t`'s non-NULL block and rewrote only it and the
tag store. -/
theorem step_syscallExit_ok {ret : Addrint} {aux : Nat}
    (h : w.step T (.syscallExit t ret aux) = .ok w') :
    w.m.threadCtxPtr t ≠ 0 ∧ ∃ tc tm, w' =
      { w with m := w.m.writeBack (w.m.threadCtxPtr t) tc tm
               phase := Function.update w.phase t .running } := by
  simp only [step] at h
  cases hm : w.m.sysexitSave T t ret aux with
  | error => rw [hm] at h; cases h
  | ok m' =>
    rw [hm] at h
    cases h
    obtain ⟨tc, c, tm, hd, -, rfl⟩ := Machine.sysexitSave_ok hm
    exact ⟨((Machine.deref_eq_ok_iff _ _ _).mp hd).1, _, _, rfl⟩

end Inversion

/-- The order in which Pin notifies each thread, and `calloc`'s promise of a fresh block. -/
def Allowed (w : World) : Event → Prop
  | .threadStart t blk => w.phase t = .idle ∧ ∀ a, blk = some a → a ≠ 0 ∧ w.m.heap a = none
  | .threadFini t => w.phase t = .running
  | .syscallEntry t _ _ _ => w.phase t = .running
  | .syscallExit t _ _ => w.phase t = .inSyscall

/-! ### Runs -/

/-- A sequence of notifications on the world, up to the first fault. -/
def run (T : SyscallDescTable) (w : World) : List Event → Except Fault World
  | [] => .ok w
  | e :: es => (w.step T e).bind fun w' => w'.run T es

/-- A run of `e :: es` succeeds exactly when `e` does and the rest runs from its world. -/
theorem run_cons_eq_ok {T : SyscallDescTable} {w w' : World} {e : Event} {es : List Event} :
    w.run T (e :: es) = .ok w' ↔ ∃ w₁, w.step T e = .ok w₁ ∧ w₁.run T es = .ok w' := by
  rw [run]; cases w.step T e <;> simp [Except.bind]

/-- A schedule Pin may deliver from `w`: each notification allowed when it comes. -/
def Schedule (T : SyscallDescTable) (w : World) : List Event → Prop
  | [] => True
  | e :: es => w.Allowed e ∧ ∀ w', w.step T e = .ok w' → Schedule T w' es

section Ghost

variable {T : SyscallDescTable} {w w' : World} {e : Event}

/-- A step changes only the acting thread's phase. -/
theorem step_phase_ne (h : w.step T e = .ok w') {u : Tid} (hu : u ≠ e.tid) :
    w'.phase u = w.phase u := by
  cases e with
  | threadStart => cases h; exact Function.update_noteq hu _ _
  | threadFini =>
    obtain ⟨m, -, rfl⟩ := step_threadFini_ok h; exact Function.update_noteq hu _ _
  | syscallEntry =>
    obtain ⟨-, tc, tm, rfl⟩ := step_syscallEntry_ok h; exact Function.update_noteq hu _ _
  | syscallExit =>
    obtain ⟨-, tc, tm, rfl⟩ := step_syscallExit_ok h; exact Function.update_noteq hu _ _

/-- A step changes only the acting thread's record of its last enter. -/
theorem step_entered_ne (h : w.step T e = .ok w') {u : Tid} (hu : u ≠ e.tid) :
    w'.entered u = w.entered u := by
  cases e with
  | threadStart => cases h; rfl
  | threadFini => obtain ⟨m, -, rfl⟩ := step_threadFini_ok h; rfl
  | syscallEntry =>
    obtain ⟨-, tc, tm, rfl⟩ := step_syscallEntry_ok h; exact Function.update_noteq hu _ _
  | syscallExit => obtain ⟨-, tc, tm, rfl⟩ := step_syscallExit_ok h; rfl

end Ghost

section Tags

variable {T : SyscallDescTable} {w w' : World}

/-- With callbacks that set no tag, no notification of the world sets one. -/
theorem step_tagmap_le (hT : T.SetsNoTag) {e : Event} (h : w.step T e = .ok w') :
    w'.m.tagmap ≤ w.m.tagmap :=
  Machine.step_tagmap_le hT (by rw [← step_m, h]; rfl)

/-- The core never taints. With syscall callbacks that set no tag, every run of
notifications, of any threads in any order and from any world, ends with no byte tainted
that was clean when it began: only a callback can set a tag. -/
theorem run_tagmap_le (hT : T.SetsNoTag) (es : List Event) (h : w.run T es = .ok w') :
    w'.m.tagmap ≤ w.m.tagmap := by
  induction es generalizing w with
  | nil => cases h; exact le_rfl
  | cons e es ih =>
    obtain ⟨w₁, hs, h⟩ := run_cons_eq_ok.mp h
    exact le_trans (ih h) (step_tagmap_le hT hs)

/-- The spec's scenario as a run: a thread starts, enters a three-argument syscall with a
ten-byte buffer at argument 1 and no callbacks, and the syscall returns `10`. The run clears
that buffer and taints nothing. -/
theorem run_tagmap_le_read_scenario :
    let T : SyscallDescTable := ⟨1, by decide, by decide,
      fun _ => ⟨3, 0, 1, fun i => if i.val = 1 then 10 else 0, none, none⟩⟩
    let w := World.init (fun _ => 0) (fun _ => true)
    let es : List Event :=
      [.threadStart 0 (some 8), .syscallEntry 0 0 (fun _ => 4096) 0, .syscallExit 0 10 0]
    T.SetsNoTag ∧ ∃ w', w.run T es = .ok w' ∧ w'.m.tagmap 4096 = false ∧
      w'.m.tagmap ≤ w.m.tagmap := by
  intro T w es
  have hT : T.SetsNoTag := fun _ => ⟨fun _ h => (nomatch h), fun _ h => (nomatch h)⟩
  have h4 : (w.run T es).toOption.map (fun w' => w'.m.tagmap 4096) = some false := by decide
  cases h : w.run T es with
  | error => rw [h] at h4; cases h4
  | ok w' =>
    rw [h] at h4
    exact ⟨hT, w', rfl, Option.some.inj h4, run_tagmap_le hT es h⟩

end Tags

end World

/-- Every world some interleaving of allowed notifications reaches without a fault. -/
inductive Reachable (T : SyscallDescTable) : World → Prop where
  | init (reg : Tid → Nat) (tm : Tagmap) : Reachable T (World.init reg tm)
  | step {w w' : World} {e : Event} :
      Reachable T w → w.Allowed e → w.step T e = .ok w' → Reachable T w'

end Libdft
