import Libdft.Thread.World

/-!
# Thread-context isolation

The invariant of every reachable world, for any syscall table and any interleaving of
threads. A live thread's register holds the block its own `thread_alloc` obtained; that
pointer is NULL only after `libdft_die`, and otherwise names a live block that no other live
thread holds. Every live block is some live thread's. Between enter and exit a thread's
syscall context is what its enter left.
-/

namespace Libdft

namespace Machine
/-- What a notification of thread `t` can read: its register, the block that register
names, and the shared tag store. -/
def view (m : Machine) (t : Tid) : Nat × Except Fault ThreadCtx × Tagmap :=
  (m.threadCtxPtr t, m.deref (m.threadCtxPtr t), m.tagmap)

theorem deref_writeBack_self (m : Machine) {p : Nat} (hp : p ≠ 0) (tc : ThreadCtx)
    (tm : Tagmap) : (m.writeBack p tc tm).deref p = .ok tc := by
  simp [deref, writeBack, hp]

/-- After writing back through its own non-NULL pointer, `t` sees the written block. -/
theorem view_writeBack (m : Machine) {t : Tid} {p : Nat} (hq : m.threadCtxPtr t = p)
    (hp : p ≠ 0) (tc : ThreadCtx) (tm : Tagmap) :
    (m.writeBack p tc tm).view t = (p, .ok tc, tm) := by
  subst hq
  show (m.threadCtxPtr t, (m.writeBack _ tc tm).deref (m.threadCtxPtr t), tm) = _
  rw [deref_writeBack_self _ hp]

/-- Away from NULL, `*p` is exactly the block at `p`. -/
theorem heap_eq_of_deref_eq {m₁ m₂ : Machine} {p : Nat} (hp : p ≠ 0)
    (h : m₁.deref p = m₂.deref p) : m₁.heap p = m₂.heap p := by
  simp only [deref, hp, ↓reduceIte] at h
  cases h₁ : m₁.heap p <;> cases h₂ : m₂.heap p <;> simp_all

/-- A notification of `t` reads nothing but `t`'s view: two machines that agree on it
agree on it after the notification too, or fault alike. -/
theorem step_view (T : SyscallDescTable) {m₁ m₂ : Machine} (e : Event)
    (h : m₁.view e.tid = m₂.view e.tid) :
    (m₁.step T e).map (·.view e.tid) = (m₂.step T e).map (·.view e.tid) := by
  simp only [view, Prod.mk.injEq] at h
  obtain ⟨hp, hd, htm⟩ := h
  rw [← hp] at hd
  cases e with
  | threadStart t blk =>
    show Except.ok _ = Except.ok _
    cases blk <;> simp [view, deref, Event.tid, htm]
  | threadFini t =>
    simp only [Event.tid] at hp hd htm ⊢
    by_cases h0 : m₁.threadCtxPtr t = 0
    · simp only [step, threadFree_of_null _ _ h0, threadFree_of_null _ _ (hp ▸ h0)]
      exact congrArg Except.ok (by simp only [view, ← hp, hd, htm])
    · have hh := heap_eq_of_deref_eq h0 hd
      cases h₁ : m₁.heap (m₁.threadCtxPtr t) with
      | none =>
        simp [step, threadFree, free, h0, h₁, ← hp, ← hh]
      | some tc =>
        rw [step, step, threadFree_of_live _ _ h0 h₁,
          threadFree_of_live _ _ (hp ▸ h0) (hp ▸ hh ▸ h₁)]
        exact congrArg Except.ok (by simp [view, deref, hp, htm])
  | syscallEntry t nr get aux =>
    simp only [Event.tid] at hp hd htm ⊢
    simp only [step, sysenterSave_eq, ← hp]
    rw [← hd, ← htm]
    cases h₁ : m₁.deref (m₁.threadCtxPtr t) with
    | error => rfl
    | ok tc =>
      have h0 := ((deref_eq_ok_iff _ _ _).mp h₁).1
      exact congrArg Except.ok (by dsimp only; rw [view_writeBack _ rfl h0, view_writeBack _ hp.symm h0])
  | syscallExit t ret aux =>
    simp only [Event.tid] at hp hd htm ⊢
    simp only [step, sysexitSave_eq, ← hp]
    rw [← hd, ← htm]
    cases h₁ : m₁.deref (m₁.threadCtxPtr t) with
    | error => rfl
    | ok tc =>
      have h0 := ((deref_eq_ok_iff _ _ _).mp h₁).1
      simp only [Except.bind]
      cases Libdft.sysexitSave T ret aux tc.syscallCtx m₁.tagmap with
      | error => rfl
      | ok r => exact congrArg Except.ok (by dsimp only; rw [view_writeBack _ rfl h0, view_writeBack _ hp.symm h0])
end Machine

namespace World

/-- The invariant of every reachable world. -/
structure Inv (w : World) : Prop where
  /-- NULL names no block. -/
  heap_zero : w.m.heap 0 = none
  /-- A live thread's register holds what its own `thread_alloc` stored. -/
  ptr_eq : ∀ t, w.phase t ≠ .idle → w.m.threadCtxPtr t = w.alloc t
  /-- A live thread holds NULL only once `libdft_die` has run. -/
  null_detached : ∀ t, w.phase t ≠ .idle → w.alloc t = 0 → w.m.detached = true
  /-- A live thread's non-NULL block is live. -/
  alloc_live : ∀ t, w.phase t ≠ .idle → w.alloc t ≠ 0 → w.m.heap (w.alloc t) ≠ none
  /-- No two live threads share a non-NULL block. -/
  alloc_inj : ∀ t u, w.phase t ≠ .idle → w.phase u ≠ .idle → w.alloc t ≠ 0 →
    w.alloc t = w.alloc u → t = u
  /-- Every live block is some live thread's. -/
  owned : ∀ a, w.m.heap a ≠ none → ∃ t, w.phase t ≠ .idle ∧ w.alloc t = a
  /-- Between enter and exit, the syscall context is what the enter left. -/
  entered_eq : ∀ t, w.phase t = .inSyscall → w.alloc t ≠ 0 ∧ w.m.syscallCtxOf t = w.entered t

theorem inv_init (reg : Tid → Nat) (tm : Tagmap) : Inv (init reg tm) where
  heap_zero := rfl
  ptr_eq _ h := absurd rfl h
  null_detached _ h := absurd rfl h
  alloc_live _ h := absurd rfl h
  alloc_inj _ _ h := absurd rfl h
  owned _ h := absurd rfl h
  entered_eq _ h := nomatch h

variable {w : World}

/-- Another live thread's block differs from a live thread's non-NULL block. -/
theorem Inv.alloc_ne (hw : Inv w) {t u : Tid} (ht : w.phase t ≠ .idle)
    (hu : w.phase u ≠ .idle) (hut : u ≠ t) (h0 : w.alloc t ≠ 0) : w.alloc u ≠ w.alloc t :=
  fun h => hut (hw.alloc_inj t u ht hu h0 h.symm).symm

/-- A live thread's non-NULL register names its live block. -/
theorem Inv.deref_ok (hw : Inv w) {t : Tid} (ht : w.phase t ≠ .idle)
    (h0 : w.m.threadCtxPtr t ≠ 0) :
    ∃ tc, w.m.heap (w.m.threadCtxPtr t) = some tc ∧ w.m.deref (w.m.threadCtxPtr t) = .ok tc := by
  rw [hw.ptr_eq t ht] at h0 ⊢
  obtain ⟨tc, htc⟩ := Option.ne_none_iff_exists'.mp (hw.alloc_live t ht h0)
  exact ⟨tc, htc, (Machine.deref_eq_ok_iff _ _ _).mpr ⟨h0, htc⟩⟩

/-- A thread inside a syscall holds a non-NULL register. -/
theorem Inv.ptr_ne_zero_of_inSyscall (hw : Inv w) {t : Tid} (ht : w.phase t = .inSyscall) :
    w.m.threadCtxPtr t ≠ 0 := by
  rw [hw.ptr_eq t (by rw [ht]; nofun)]
  exact (hw.entered_eq t ht).1

/-- A thread that moves between live phases leaves the set of live threads unchanged. -/
private theorem live_update {phase : Tid → Phase} {t : Tid} {ph : Phase} (ht : phase t ≠ .idle)
    (hph : ph ≠ .idle) (u : Tid) : Function.update phase t ph u ≠ .idle ↔ phase u ≠ .idle := by
  by_cases hu : u = t
  · subst hu; simp [ht, hph]
  · rw [Function.update_noteq hu]

/-- A syscall notification of a live thread rewrites its own non-NULL block. -/
private theorem inv_writeBack (hw : Inv w) {t : Tid} (ht : w.phase t ≠ .idle)
    (h0 : w.alloc t ≠ 0) (tc : ThreadCtx) (tm : Tagmap) {ph : Phase} (hph : ph ≠ .idle)
    {E : Tid → Option SyscallCtx} (hE : ∀ u, u ≠ t → E u = w.entered u)
    (hEt : ph = .inSyscall → E t = some tc.syscallCtx) :
    Inv { m := w.m.writeBack (w.alloc t) tc tm, phase := Function.update w.phase t ph,
          alloc := w.alloc, entered := E } := by
  have hl := live_update ht hph
  have hheap (a : Nat) : (w.m.writeBack (w.alloc t) tc tm).heap a =
      if a = w.alloc t then some tc else w.m.heap a := Function.update_apply _ _ _ _
  refine ⟨?_, fun u hu => hw.ptr_eq u ((hl u).mp hu),
    fun u hu => hw.null_detached u ((hl u).mp hu), fun u hu hu0 => ?_,
    fun u v hu hv => hw.alloc_inj u v ((hl u).mp hu) ((hl v).mp hv), fun a ha => ?_,
    fun u hu => ?_⟩
  · rw [hheap, if_neg (Ne.symm h0)]; exact hw.heap_zero
  · rw [hheap]; split
    · simp
    · exact hw.alloc_live u ((hl u).mp hu) hu0
  · rw [hheap] at ha; split at ha
    · exact ⟨t, (hl t).mpr ht, by simp_all⟩
    · obtain ⟨u, hu, rfl⟩ := hw.owned a ha
      exact ⟨u, (hl u).mpr hu, rfl⟩
  · dsimp only at hu ⊢
    by_cases hut : u = t
    · subst hut
      have hph' : ph = .inSyscall := by simpa using hu
      refine ⟨h0, ?_⟩
      simp [Machine.syscallCtxOf, hEt hph', Machine.writeBack, hw.ptr_eq u ht]
    · rw [Function.update_noteq hut] at hu
      obtain ⟨hu0, hctx⟩ := hw.entered_eq u hu
      have hlu : w.phase u ≠ .idle := by simp [hu]
      refine ⟨hu0, ?_⟩
      rw [hE u hut, ← hctx]
      simp only [Machine.syscallCtxOf, Machine.writeBack, hw.ptr_eq u hlu]
      rw [Function.update_noteq (hw.alloc_ne ht hlu hut h0)]

/-- `thread_alloc` hands `t` the fresh block `calloc` returned, or NULL after `libdft_die`,
and leaves every live block. -/
private theorem inv_threadStart (hw : Inv w) {t : Tid} {blk : Option Nat}
    (ht : w.phase t = .idle) (hblk : ∀ a, blk = some a → a ≠ 0 ∧ w.m.heap a = none) :
    Inv { m := w.m.threadAlloc t blk, phase := Function.update w.phase t .running,
          alloc := Function.update w.alloc t (blk.getD 0), entered := w.entered } := by
  have hheap (x : Nat) : (w.m.threadAlloc t blk).heap x =
      if blk = some x then some ThreadCtx.zero else w.m.heap x := by
    cases blk with
    | none => rfl
    | some a => simp [Function.update_apply, eq_comm]
  have hptr : (w.m.threadAlloc t blk).threadCtxPtr =
      Function.update w.m.threadCtxPtr t (blk.getD 0) := by cases blk <;> rfl
  have hfresh (u : Tid) (hu : w.phase u ≠ .idle) : blk ≠ some (w.alloc u) := fun h =>
    hw.alloc_live u hu (hblk _ h).1 (hblk _ h).2
  have hlive (u : Tid) (hu : Function.update w.phase t .running u ≠ .idle) :
      u = t ∨ (u ≠ t ∧ w.phase u ≠ .idle) := by
    by_cases h : u = t
    · exact .inl h
    · exact .inr ⟨h, by rwa [Function.update_noteq h] at hu⟩
  have hut (u : Tid) (hu : w.phase u ≠ .idle) : u ≠ t := fun h => hu (h ▸ ht)
  have hnew (u : Tid) (hu : w.phase u ≠ .idle) (h0 : blk.getD 0 ≠ 0) : blk.getD 0 ≠ w.alloc u :=
    fun he => by
      cases blk with
      | none => exact h0 rfl
      | some a => exact hfresh u hu (congrArg some he)
  refine ⟨?_, fun u hu => ?_, fun u hu hu0 => ?_, fun u hu hu0 => ?_,
    fun u v hu hv hu0 he => ?_, fun x hx => ?_, fun u hu => ?_⟩ <;> dsimp only at *
  · rw [hheap, if_neg fun h => (hblk 0 h).1 rfl]; exact hw.heap_zero
  · rw [hptr]
    rcases hlive u hu with rfl | ⟨h, hu⟩
    · simp
    · simp [Function.update_noteq h, hw.ptr_eq u hu]
  · rcases hlive u hu with rfl | ⟨h, hu⟩
    · cases blk with
      | none => rfl
      | some a => exact absurd (by simpa using hu0) (hblk a rfl).1
    · have hd := hw.null_detached u hu (by simpa [Function.update_noteq h] using hu0)
      cases blk <;> simp [hd]
  · rw [hheap]
    rcases hlive u hu with rfl | ⟨h, hu⟩
    · cases blk <;> simp_all
    · rw [Function.update_noteq h] at hu0 ⊢
      rw [if_neg (hfresh u hu)]; exact hw.alloc_live u hu hu0
  · rcases hlive u hu with rfl | ⟨h, hu'⟩ <;> rcases hlive v hv with rfl | ⟨h', hv'⟩
    · rfl
    · rw [Function.update_same, Function.update_noteq h'] at he
      rw [Function.update_same] at hu0
      exact absurd he (hnew v hv' hu0)
    · rw [Function.update_same, Function.update_noteq h] at he
      rw [Function.update_noteq h] at hu0
      exact absurd he.symm (hnew u hu' (he ▸ hu0))
    · exact hw.alloc_inj u v hu' hv' (by simpa [Function.update_noteq h] using hu0)
        (by simpa [Function.update_noteq h, Function.update_noteq h'] using he)
  · rw [hheap] at hx
    split at hx
    · next h => exact ⟨t, by simp, by simp [h]⟩
    · obtain ⟨u, hu, rfl⟩ := hw.owned x hx
      exact ⟨u, by simpa [Function.update_noteq (hut u hu)] using hu,
        by simp [Function.update_noteq (hut u hu)]⟩
  · have h : u ≠ t := fun h => by subst h; simp at hu
    rw [Function.update_noteq h] at hu
    have hlu : w.phase u ≠ .idle := by simp [hu]
    obtain ⟨hu0, hctx⟩ := hw.entered_eq u hu
    refine ⟨by simpa [Function.update_noteq h] using hu0, ?_⟩
    rw [← hctx, Machine.syscallCtxOf, Machine.syscallCtxOf, hptr, Function.update_noteq h,
      hw.ptr_eq u hlu, hheap, if_neg (hfresh u hlu)]

/-- `thread_free` of a live thread frees exactly the block its own `thread_alloc` obtained;
for NULL it frees nothing, and the heap has no block at NULL. -/
theorem Inv.threadFree_eq (hw : Inv w) {t : Tid} (ht : w.phase t ≠ .idle) :
    w.m.threadFree t = .ok { w.m with heap := Function.update w.m.heap (w.alloc t) none } := by
  rw [← hw.ptr_eq t ht]
  by_cases h0 : w.m.threadCtxPtr t = 0
  · rw [Machine.threadFree_of_null _ _ h0, h0, ← hw.heap_zero, Function.update_eq_self]
  · obtain ⟨tc, htc, -⟩ := hw.deref_ok ht h0
    exact Machine.threadFree_of_live _ _ h0 htc

/-- `thread_free` drops `t` and its block from the invariant. -/
private theorem inv_threadFini (hw : Inv w) {t : Tid} (ht : w.phase t = .running) :
    Inv { w with m := { w.m with heap := Function.update w.m.heap (w.alloc t) none }
                 phase := Function.update w.phase t .idle } := by
  have htl : w.phase t ≠ .idle := by simp [ht]
  have hlive (u : Tid) (hu : Function.update w.phase t .idle u ≠ .idle) :
      u ≠ t ∧ w.phase u ≠ .idle := by
    by_cases h : u = t
    · subst h; simp at hu
    · exact ⟨h, by rwa [Function.update_noteq h] at hu⟩
  have hne (u : Tid) (hu : w.phase u ≠ .idle) (hut : u ≠ t) (hu0 : w.alloc u ≠ 0) :
      w.alloc u ≠ w.alloc t := by
    by_cases h0 : w.alloc t = 0
    · rwa [h0]
    · exact hw.alloc_ne htl hu hut h0
  refine ⟨?_, fun u hu => hw.ptr_eq u (hlive u hu).2,
    fun u hu => hw.null_detached u (hlive u hu).2, fun u hu hu0 => ?_,
    fun u v hu hv => hw.alloc_inj u v (hlive u hu).2 (hlive v hv).2, fun x hx => ?_,
    fun u hu => ?_⟩
  · by_cases h : (0 : Nat) = w.alloc t
    · dsimp only; rw [h, Function.update_same]
    · dsimp only; rw [Function.update_noteq h]; exact hw.heap_zero
  · obtain ⟨hut, hu⟩ := hlive u hu
    dsimp only
    rw [Function.update_noteq (hne u hu hut hu0)]
    exact hw.alloc_live u hu hu0
  · dsimp only at hx
    have hxt : x ≠ w.alloc t := fun h => by subst h; simp at hx
    rw [Function.update_noteq hxt] at hx
    obtain ⟨u, hu, rfl⟩ := hw.owned x hx
    have hut : u ≠ t := fun h => hxt (h ▸ rfl)
    exact ⟨u, by dsimp only; rwa [Function.update_noteq hut], rfl⟩
  · dsimp only at hu ⊢
    obtain ⟨hut, hlu⟩ := hlive u (by simp [hu])
    rw [Function.update_noteq hut] at hu
    obtain ⟨hu0, hctx⟩ := hw.entered_eq u hu
    refine ⟨hu0, ?_⟩
    rw [← hctx]
    simp only [Machine.syscallCtxOf]
    rw [hw.ptr_eq u hlu, Function.update_noteq (hne u hlu hut hu0)]

/-- Every allowed notification that does not fault keeps the invariant. -/
theorem inv_step (hw : Inv w) {T : SyscallDescTable} {e : Event} {w' : World}
    (ha : w.Allowed e) (h : w.step T e = .ok w') : Inv w' := by
  cases e with
  | threadStart t blk =>
    cases h
    exact inv_threadStart hw ha.1 ha.2
  | threadFini t =>
    have ht : w.phase t ≠ .idle := by simp [show w.phase t = .running from ha]
    simp only [step, hw.threadFree_eq ht] at h
    cases h
    exact inv_threadFini hw ha
  | syscallEntry t nr get aux =>
    have ht : w.phase t ≠ .idle := by simp [show w.phase t = .running from ha]
    obtain ⟨hp0, tc, tm, rfl⟩ := step_syscallEntry_ok h
    rw [hw.ptr_eq t ht] at hp0 ⊢
    exact inv_writeBack hw ht hp0 tc tm (by simp) (fun u hu => Function.update_noteq hu _ _)
      fun _ => Function.update_same _ _ _
  | syscallExit t ret aux =>
    have ht : w.phase t ≠ .idle := by simp [show w.phase t = .inSyscall from ha]
    obtain ⟨hp0, tc, tm, rfl⟩ := step_syscallExit_ok h
    rw [hw.ptr_eq t ht] at hp0 ⊢
    exact inv_writeBack hw ht hp0 tc tm (by simp) (fun _ _ => rfl) nofun

/-- The invariant holds in every reachable world. -/
theorem inv_reachable {T : SyscallDescTable} (h : Reachable T w) : Inv w := by
  induction h with
  | init reg tm => exact inv_init reg tm
  | step _ ha hs ih => exact inv_step ih ha hs

/-- The live blocks are exactly the non-NULL pointers of live threads. -/
theorem Inv.heap_ne_none_iff (hw : Inv w) (a : Nat) :
    w.m.heap a ≠ none ↔ a ≠ 0 ∧ ∃ t, w.phase t ≠ .idle ∧ w.m.threadCtxPtr t = a := by
  constructor
  · intro ha
    obtain ⟨t, ht, rfl⟩ := hw.owned a ha
    exact ⟨fun h => ha (h ▸ hw.heap_zero), t, ht, hw.ptr_eq t ht⟩
  · rintro ⟨ha, t, ht, rfl⟩
    rw [hw.ptr_eq t ht] at ha ⊢
    exact hw.alloc_live t ht ha

/-- A notification of one thread changes no other live thread's register or block. -/
theorem Inv.frame (hw : Inv w) {T : SyscallDescTable} {e : Event} {w' : World}
    (ha : w.Allowed e) (h : w.step T e = .ok w') {u : Tid} (hut : u ≠ e.tid)
    (hu : w.phase u ≠ .idle) :
    w'.m.threadCtxPtr u = w.m.threadCtxPtr u ∧
      w'.m.heap (w.m.threadCtxPtr u) = w.m.heap (w.m.threadCtxPtr u) := by
  suffices h' : w'.m.threadCtxPtr u = w.m.threadCtxPtr u ∧
      w'.m.heap (w.alloc u) = w.m.heap (w.alloc u) by
    rw [hw.ptr_eq u hu] at h' ⊢; exact h'
  cases e with
  | threadStart t blk =>
    cases h
    cases blk with
    | none => exact ⟨Function.update_noteq hut _ _, rfl⟩
    | some a =>
      have hna : w.alloc u ≠ a := fun h =>
        hw.alloc_live u hu (h ▸ (ha.2 a rfl).1) (h ▸ (ha.2 a rfl).2)
      exact ⟨Function.update_noteq hut _ _, Function.update_noteq hna _ _⟩
  | threadFini t =>
    have ht : w.phase t ≠ .idle := by simp [show w.phase t = .running from ha]
    simp only [step, hw.threadFree_eq ht] at h
    cases h
    refine ⟨rfl, ?_⟩
    by_cases h0 : w.alloc t = 0
    · dsimp only; rw [h0, ← hw.heap_zero, Function.update_eq_self]
    · exact Function.update_noteq (hw.alloc_ne ht hu hut h0) _ _
  | syscallEntry t nr get aux =>
    have ht : w.phase t ≠ .idle := by simp [show w.phase t = .running from ha]
    obtain ⟨hp0, tc, tm, rfl⟩ := step_syscallEntry_ok h
    rw [hw.ptr_eq t ht] at hp0 ⊢
    exact ⟨rfl, Function.update_noteq (hw.alloc_ne ht hu hut hp0) _ _⟩
  | syscallExit t ret aux =>
    have ht : w.phase t ≠ .idle := by simp [show w.phase t = .inSyscall from ha]
    obtain ⟨hp0, tc, tm, rfl⟩ := step_syscallExit_ok h
    rw [hw.ptr_eq t ht] at hp0 ⊢
    exact ⟨rfl, Function.update_noteq (hw.alloc_ne ht hu hut hp0) _ _⟩

/-- Between enter and exit, `sysexit_save` runs its body on the context the enter left. -/
theorem Inv.sysexitSave_entered (hw : Inv w) (T : SyscallDescTable) {t : Tid}
    (ht : w.phase t = .inSyscall) :
    ∃ c, w.entered t = some c ∧ ∀ r aux, w.m.sysexitSave T t r aux =
      (Libdft.sysexitSave T r aux c w.m.tagmap).map fun x =>
        w.m.writeBack (w.m.threadCtxPtr t) ⟨x.1⟩ x.2 := by
  obtain ⟨tc, htc, hd⟩ := hw.deref_ok (by rw [ht]; nofun) (hw.ptr_ne_zero_of_inSyscall ht)
  refine ⟨tc.syscallCtx, ?_, fun r aux => ?_⟩
  · rw [← (hw.entered_eq t ht).2, Machine.syscallCtxOf, htc]; rfl
  · rw [Machine.sysexitSave_eq, hd]; rfl

/-- Thread-context isolation as it holds of a world: the parts of the property, one per field. -/
structure Isolated (T : SyscallDescTable) (w : World) : Prop where
  /-- A live thread holds NULL only after `libdft_die`; otherwise it holds the live block
  its own `thread_alloc` obtained, which no other live thread holds. -/
  ptr : ∀ t, w.phase t ≠ .idle →
    (w.m.threadCtxPtr t = 0 → w.m.detached = true) ∧
    (w.m.threadCtxPtr t ≠ 0 → w.m.threadCtxPtr t = w.alloc t ∧
      w.m.heap (w.m.threadCtxPtr t) ≠ none ∧
      ∀ u, w.phase u ≠ .idle → u ≠ t → w.m.threadCtxPtr u ≠ w.m.threadCtxPtr t)
  /-- The live blocks are exactly the live threads' non-NULL pointers. -/
  blocks : ∀ a, w.m.heap a ≠ none ↔ a ≠ 0 ∧ ∃ t, w.phase t ≠ .idle ∧ w.m.threadCtxPtr t = a
  /-- A notification of one thread changes no other live thread's register or context. -/
  frame : ∀ e w', w.Allowed e → w.step T e = .ok w' → ∀ u, u ≠ e.tid → w.phase u ≠ .idle →
    w'.m.threadCtxPtr u = w.m.threadCtxPtr u ∧
    w'.m.heap (w.m.threadCtxPtr u) = w.m.heap (w.m.threadCtxPtr u)
  /-- A notification of `t` reads nothing but `t`'s register, `t`'s context and the tags. -/
  reads : ∀ e (m : Machine), m.view e.tid = w.m.view e.tid →
    (m.step T e).map (·.view e.tid) = (w.m.step T e).map (·.view e.tid)
  /-- `thread_free` of `t` frees the live block `t`'s own `thread_alloc` obtained, and no other. -/
  free : ∀ t, w.phase t = .running → w.alloc t ≠ 0 → w.m.heap (w.alloc t) ≠ none ∧
    w.m.threadFree t = .ok { w.m with heap := Function.update w.m.heap (w.alloc t) none }
  /-- Between enter and exit, `sysexit_save` runs on exactly the context the enter left. -/
  exit : ∀ t, w.phase t = .inSyscall → ∃ c, w.entered t = some c ∧ ∀ r aux,
    w.m.sysexitSave T t r aux = (Libdft.sysexitSave T r aux c w.m.tagmap).map fun x =>
      w.m.writeBack (w.m.threadCtxPtr t) ⟨x.1⟩ x.2

/-- Every reachable world is isolated, for any syscall table, any number of threads and any
interleaving of their notifications. -/
theorem thread_ctx_isolation (T : SyscallDescTable) {w : World} (hw : Reachable T w) :
    Isolated T w := by
  have hi := inv_reachable hw
  refine ⟨fun t ht => ⟨fun h0 => hi.null_detached t ht (hi.ptr_eq t ht ▸ h0), fun h0 => ?_⟩,
    hi.heap_ne_none_iff, fun _ _ ha hs _ hut hu => hi.frame ha hs hut hu,
    fun e _ h => Machine.step_view T e h, fun t ht h0 => ?_, fun t ht => hi.sysexitSave_entered T ht⟩
  · rw [hi.ptr_eq t ht] at h0 ⊢
    exact ⟨rfl, hi.alloc_live t ht h0, fun u hu hut => hi.ptr_eq u hu ▸ hi.alloc_ne ht hu hut h0⟩
  · have htl : w.phase t ≠ .idle := by simp [ht]
    exact ⟨hi.alloc_live t htl h0, hi.threadFree_eq htl⟩

/-- Two threads started with the fresh blocks `8` and `16`: a reachable world, hence an
isolated one, where each holds its own block. -/
theorem thread_ctx_isolation_two_threads :
    let T : SyscallDescTable := ⟨1, by decide, by decide,
      fun _ => ⟨0, 0, 0, fun _ => 0, none, none⟩⟩
    let w₁ : World :=
      { m := (World.init (fun _ => 0) (fun _ => false)).m.threadAlloc 0 (some 8)
        phase := Function.update (fun _ => .idle) 0 .running
        alloc := Function.update (fun _ => 0) 0 8
        entered := fun _ => none }
    let w : World :=
      { m := w₁.m.threadAlloc 1 (some 16)
        phase := Function.update w₁.phase 1 .running
        alloc := Function.update w₁.alloc 1 16
        entered := fun _ => none }
    Reachable T w ∧ Isolated T w := by
  intro T w₁ w
  have hw₁ : Reachable T w₁ := .step (.init _ _) (e := .threadStart 0 (some 8))
    ⟨rfl, fun a ha => by cases ha; exact ⟨by decide, rfl⟩⟩ rfl
  have hw : Reachable T w := .step hw₁ (e := .threadStart 1 (some 16))
    ⟨rfl, fun a ha => by cases ha; exact ⟨by decide, rfl⟩⟩ rfl
  exact ⟨hw, thread_ctx_isolation T hw⟩

/-- A failed `calloc` leaves a live thread holding NULL. -/
theorem thread_alloc_null_reachable :
    ∃ w, Reachable ⟨1, by decide, by decide, fun _ => ⟨0, 0, 0, fun _ => 0, none, none⟩⟩ w ∧
      w.phase 0 ≠ .idle ∧ w.m.threadCtxPtr 0 = 0 :=
  ⟨_, .step (.init (fun _ => 0) (fun _ => false)) (e := .threadStart 0 none)
    ⟨rfl, fun _ h => nomatch h⟩ rfl, by decide, rfl⟩

end World

end Libdft
