import Libdft.Syscall.Handshake

/-!
# Thread contexts behind the spilled register

`src/libdft/src/libdft_api.c:52–121`, with the pointer reads of `sysenter_save` (line 138)
and `sysexit_save` (line 245). Pin offers no thread-local storage, so `thread_alloc` keeps
the address of a `calloc`'d `thread_ctx_t` in the tool register `thread_ctx_ptr` of the
thread's `CONTEXT`, and each later notification of the thread reads it back from there.
`calloc` may return NULL: `thread_alloc` then calls `libdft_die`, which only asks Pin to
detach, and still stores the NULL pointer.
-/

namespace Libdft

/-- A Pin `THREADID`. -/
abbrev Tid := Nat

/-- What the four thread notifications act on. -/
structure Machine where
  /-- `thread_ctx_ptr` in each thread's `CONTEXT`; `0` is NULL. -/
  threadCtxPtr : Tid → Nat
  /-- The live `calloc` blocks, each holding a `thread_ctx_t`. -/
  heap : Nat → Option ThreadCtx
  tagmap : Tagmap
  /-- `libdft_die` has asked Pin to detach. -/
  detached : Bool

/-- A notification Pin delivers to the tool, with the values it carries. `blk` is the
block `calloc` returns (`none` for NULL); `get i` is `PIN_GetSyscallArgument(ctx, std, i)`;
`ctx` is the notification's `CONTEXT *`. -/
inductive Event where
  | threadStart (t : Tid) (blk : Option Nat)
  | threadFini (t : Tid)
  | syscallEntry (t : Tid) (nr : Addrint) (get : Nat → Addrint) (ctx : Nat)
  | syscallExit (t : Tid) (ret : Addrint) (ctx : Nat)

/-- The thread a notification concerns. -/
def Event.tid : Event → Tid
  | .threadStart t _ | .threadFini t | .syscallEntry t _ _ _ | .syscallExit t _ _ => t

namespace Machine

/-- `PIN_SetContextReg(ctx, thread_ctx_ptr, v)` on thread `t`. -/
def setContextReg (m : Machine) (t : Tid) (v : Nat) : Machine :=
  { m with threadCtxPtr := Function.update m.threadCtxPtr t v }

/-- `calloc(1, sizeof(thread_ctx_t))` returning the zero-filled block at `a`. -/
def calloc (m : Machine) (a : Nat) : Machine :=
  { m with heap := Function.update m.heap a (some ThreadCtx.zero) }

/-- `libdft_die` (lines 503–511): `PIN_Detach()`. -/
def libdftDie (m : Machine) : Machine := { m with detached := true }

/-- `*p` for a `thread_ctx_t *p`. -/
def deref (m : Machine) (p : Nat) : Except Fault ThreadCtx :=
  if p = 0 then .error .nullDeref
  else match m.heap p with
    | some tc => .ok tc
    | none => .error .useAfterFree

/-- `free(p)`: a no-op on NULL, a fault on a block that is not live. -/
def free (m : Machine) (p : Nat) : Except Fault Machine :=
  if p = 0 then .ok m
  else match m.heap p with
    | some _ => .ok { m with heap := Function.update m.heap p none }
    | none => .error .invalidFree

/-- The in-place writes through `p`: the block becomes `tc` and the tag store `tm`. -/
def writeBack (m : Machine) (p : Nat) (tc : ThreadCtx) (tm : Tagmap) : Machine :=
  { m with heap := Function.update m.heap p (some tc), tagmap := tm }

/-- `thread_alloc` (lines 81–100). -/
def threadAlloc (m : Machine) (t : Tid) (blk : Option Nat) : Machine :=
  let m := match blk with
    | some a => m.calloc a
    | none => m.libdftDie
  m.setContextReg t (blk.getD 0)

/-- `thread_free` (lines 112–121). -/
def threadFree (m : Machine) (t : Tid) : Except Fault Machine :=
  m.free (m.threadCtxPtr t)

/-- `sysenter_save` (lines 134–222) as thread `t` runs it. -/
def sysenterSave (T : SyscallDescTable) (m : Machine) (t : Tid) (nr : Addrint)
    (get : Nat → Addrint) (aux : Nat) : Except Fault Machine := do
  let p := m.threadCtxPtr t
  let tc ← m.deref p
  let r := Libdft.sysenterSave T nr get aux tc.syscallCtx m.tagmap
  pure (m.writeBack p ⟨r.1⟩ r.2)

/-- `sysexit_save` (lines 238–309) as thread `t` runs it. -/
def sysexitSave (T : SyscallDescTable) (m : Machine) (t : Tid) (ret : Addrint) (aux : Nat) :
    Except Fault Machine := do
  let p := m.threadCtxPtr t
  let tc ← m.deref p
  let r ← Libdft.sysexitSave T ret aux tc.syscallCtx m.tagmap
  pure (m.writeBack p ⟨r.1⟩ r.2)

/-- One notification. -/
def step (T : SyscallDescTable) (m : Machine) : Event → Except Fault Machine
  | .threadStart t blk => .ok (m.threadAlloc t blk)
  | .threadFini t => m.threadFree t
  | .syscallEntry t nr get aux => m.sysenterSave T t nr get aux
  | .syscallExit t ret aux => m.sysexitSave T t ret aux

/-! ### One lemma per operation -/

variable (T : SyscallDescTable) (m : Machine) (t : Tid)

@[simp] theorem threadAlloc_some (a : Nat) :
    m.threadAlloc t (some a) =
      { m with heap := Function.update m.heap a (some ThreadCtx.zero)
               threadCtxPtr := Function.update m.threadCtxPtr t a } := rfl

@[simp] theorem threadAlloc_none :
    m.threadAlloc t none =
      { m with detached := true, threadCtxPtr := Function.update m.threadCtxPtr t 0 } := rfl

theorem deref_eq_ok_iff (p : Nat) (tc : ThreadCtx) :
    m.deref p = .ok tc ↔ p ≠ 0 ∧ m.heap p = some tc := by
  unfold deref
  split
  · simp_all
  · split <;> simp_all

/-- `thread_free` of a thread with a live block removes exactly that block. -/
theorem threadFree_of_live {tc : ThreadCtx} (hp : m.threadCtxPtr t ≠ 0)
    (hh : m.heap (m.threadCtxPtr t) = some tc) :
    m.threadFree t = .ok { m with heap := Function.update m.heap (m.threadCtxPtr t) none } := by
  simp [threadFree, free, hp, hh]

/-- `thread_free` of a thread holding NULL changes nothing. -/
theorem threadFree_of_null (hp : m.threadCtxPtr t = 0) : m.threadFree t = .ok m := by
  simp [threadFree, free, hp]

/-- `thread_free` either changes nothing (NULL) or drops the block `t`'s register names. -/
theorem threadFree_ok {m m' : Machine} {t : Tid} (h : m.threadFree t = .ok m') :
    m' = m ∨ m' = { m with heap := Function.update m.heap (m.threadCtxPtr t) none } := by
  by_cases h0 : m.threadCtxPtr t = 0
  · rw [threadFree_of_null _ _ h0] at h; exact .inl (Except.ok.inj h).symm
  · cases hh : m.heap (m.threadCtxPtr t) with
    | none => simp [threadFree, free, h0, hh] at h
    | some tc => rw [threadFree_of_live _ _ h0 hh] at h; exact .inr (Except.ok.inj h).symm

/-- What a syscall notification of `t` can do: dereference `t`'s pointer, then rewrite that
block and the tag store with the result of the body. -/
theorem sysenterSave_eq (nr : Addrint) (get : Nat → Addrint) (aux : Nat) :
    m.sysenterSave T t nr get aux = (m.deref (m.threadCtxPtr t)).map fun tc =>
      m.writeBack (m.threadCtxPtr t)
        ⟨(Libdft.sysenterSave T nr get aux tc.syscallCtx m.tagmap).1⟩
        (Libdft.sysenterSave T nr get aux tc.syscallCtx m.tagmap).2 := by
  simp only [sysenterSave]
  cases m.deref (m.threadCtxPtr t) <;> rfl

theorem sysexitSave_eq (ret : Addrint) (aux : Nat) :
    m.sysexitSave T t ret aux = (m.deref (m.threadCtxPtr t)).bind fun tc =>
      (Libdft.sysexitSave T ret aux tc.syscallCtx m.tagmap).map fun r =>
        m.writeBack (m.threadCtxPtr t) ⟨r.1⟩ r.2 := by
  simp only [sysexitSave]
  cases m.deref (m.threadCtxPtr t) with
  | error => rfl
  | ok tc => cases Libdft.sysexitSave T ret aux tc.syscallCtx m.tagmap <;> rfl

/-- A successful enter went through `t`'s live block and rewrote only it and the tag store. -/
theorem sysenterSave_ok {T : SyscallDescTable} {m m' : Machine} {t : Tid} {nr : Addrint}
    {get : Nat → Addrint} {aux : Nat} (h : m.sysenterSave T t nr get aux = .ok m') :
    ∃ tc, m.deref (m.threadCtxPtr t) = .ok tc ∧
      m' = m.writeBack (m.threadCtxPtr t)
        ⟨(Libdft.sysenterSave T nr get aux tc.syscallCtx m.tagmap).1⟩
        (Libdft.sysenterSave T nr get aux tc.syscallCtx m.tagmap).2 := by
  rw [sysenterSave_eq] at h
  cases hd : m.deref (m.threadCtxPtr t) with
  | error => rw [hd] at h; cases h
  | ok tc => rw [hd] at h; cases h; exact ⟨tc, rfl, rfl⟩

/-- A successful exit went through `t`'s live block and rewrote only it and the tag store. -/
theorem sysexitSave_ok {T : SyscallDescTable} {m m' : Machine} {t : Tid} {ret : Addrint}
    {aux : Nat} (h : m.sysexitSave T t ret aux = .ok m') :
    ∃ tc c tm, m.deref (m.threadCtxPtr t) = .ok tc ∧
      Libdft.sysexitSave T ret aux tc.syscallCtx m.tagmap = .ok (c, tm) ∧
      m' = m.writeBack (m.threadCtxPtr t) ⟨c⟩ tm := by
  rw [sysexitSave_eq] at h
  cases hd : m.deref (m.threadCtxPtr t) with
  | error => rw [hd] at h; cases h
  | ok tc =>
    rw [hd] at h
    simp only [Except.bind] at h
    cases hx : Libdft.sysexitSave T ret aux tc.syscallCtx m.tagmap with
    | error => rw [hx] at h; cases h
    | ok r => rw [hx] at h; cases h; exact ⟨tc, r.1, r.2, rfl, hx, rfl⟩

/-- With callbacks that set no tag, no notification sets one. -/
theorem step_tagmap_le {T : SyscallDescTable} (hT : T.SetsNoTag) {m m' : Machine} {e : Event}
    (h : m.step T e = .ok m') : m'.tagmap ≤ m.tagmap := by
  cases e with
  | threadStart t blk => cases h; cases blk <;> exact le_rfl
  | threadFini t => rcases threadFree_ok h with rfl | rfl <;> exact le_rfl
  | syscallEntry t nr get aux =>
    obtain ⟨tc, -, rfl⟩ := sysenterSave_ok h
    exact sysenterSave_le T nr get aux _ _ hT
  | syscallExit t ret aux =>
    obtain ⟨tc, c, tm, -, hx, rfl⟩ := sysexitSave_ok h
    exact sysexitSave_le hT hx

end Machine

end Libdft
