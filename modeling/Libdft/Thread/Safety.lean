import Libdft.Thread.Sentinel

/-!
# No fault but the NULL context

For a syscall table that keeps the spec's promises (§4.4: at most six declared arguments,
callbacks that keep `nr`), every notification Pin may deliver in a reachable world succeeds,
with one exception: a syscall of a thread whose `calloc` failed dereferences the NULL pointer
`thread_alloc` stored anyway (lines 88–99, 138 and 245). No use after free, no free of a dead
block, and no read past `syscall_desc` or past the six argument slots is reachable.
-/

namespace Libdft

/-- The spec's promises about the descriptor table. -/
structure SyscallDescTable.WellFormed (T : SyscallDescTable) : Prop where
  nargs_le : ∀ i, (T.desc i).nargs ≤ 6
  keepsNr : T.KeepsNr

variable {T : SyscallDescTable}

/-- On a valid number and a table of at most six arguments, `sysexit_save` does not fault. -/
theorem sysexitSave_ok_of_nrValid (hn : ∀ i, (T.desc i).nargs ≤ 6) {c : SyscallCtx}
    (hv : NrValid T c) (r : Addrint) (aux : Nat) (tm : Tagmap) :
    ∃ x, sysexitSave T r aux c tm = .ok x := by
  rcases hv with hv | ⟨h0, hlt⟩
  · exact ⟨_, sysexitSave_of_neg T r aux c tm (by rw [hv]; decide)⟩
  obtain ⟨d, hd⟩ : ∃ d, T.lookup c.nr.toNat = some d := ⟨_, T.lookup_of_lt (by omega)⟩
  have hd6 : d.nargs ≤ 6 := by
    obtain ⟨_, rfl⟩ := (T.lookup_eq_some_iff _ _).mp hd
    exact hn _
  rcases sysexitSave_cases T r aux c tm h0 hd with hx | ⟨f, -, hx⟩ | hx | hx
  · exact ⟨_, hx⟩
  · exact ⟨_, hx⟩
  · exact ⟨_, hx⟩
  · obtain ⟨tm', hc, -⟩ := clearArgs_spec d c.arg tm hd6
    exact ⟨_, by rw [hx, hc]; rfl⟩

namespace World

/-- From a reachable world, an allowed notification that is no enter on a NULL register
succeeds. -/
private theorem step_ok_of_not_null (hT : T.WellFormed) {w : World} (hw : Reachable T w)
    {e : Event} (he : w.Allowed e)
    (hnull : ¬∃ t nr get aux, e = .syscallEntry t nr get aux ∧ w.m.threadCtxPtr t = 0) :
    ∃ w', w.step T e = .ok w' := by
  have hi := inv_reachable hw
  cases e with
  | threadStart => exact ⟨_, rfl⟩
  | threadFini t =>
    have ht : w.phase t ≠ .idle := by rw [show w.phase t = _ from he]; nofun
    exact ⟨_, by rw [step, hi.threadFree_eq ht]; rfl⟩
  | syscallEntry t nr get aux =>
    have ht : w.phase t ≠ .idle := by rw [show w.phase t = _ from he]; nofun
    obtain ⟨tc, -, hd⟩ := hi.deref_ok ht fun h0 => hnull ⟨t, nr, get, aux, rfl, h0⟩
    exact ⟨_, by rw [step, Machine.sysenterSave_eq, hd]; rfl⟩
  | syscallExit t ret aux =>
    have ht : w.phase t = .inSyscall := he
    obtain ⟨tc, htc, hd⟩ := hi.deref_ok (by rw [ht]; nofun) (hi.ptr_ne_zero_of_inSyscall ht)
    have hv := nrInv_reachable hT.keepsNr hw _ tc htc
    obtain ⟨x, hx⟩ := sysexitSave_ok_of_nrValid hT.nargs_le hv ret aux w.m.tagmap
    exact ⟨_, by rw [step, Machine.sysexitSave_eq, hd]; simp only [Except.bind, hx]; rfl⟩

/-- From a reachable world, an allowed notification succeeds, or it is a syscall of a thread
left with NULL after `libdft_die`, and it dereferences that NULL. It faults exactly when it
is an enter of a thread whose register holds NULL. -/
theorem step_ok_or_nullDeref (hT : T.WellFormed) {w : World} (hw : Reachable T w) {e : Event}
    (he : w.Allowed e) :
    ((∃ w', w.step T e = .ok w') ∨
      (w.m.detached = true ∧ w.m.threadCtxPtr e.tid = 0 ∧ w.step T e = .error .nullDeref)) ∧
    (w.step T e = .error .nullDeref ↔
      ∃ t nr get aux, e = .syscallEntry t nr get aux ∧ w.m.threadCtxPtr t = 0) := by
  by_cases hnull : ∃ t nr get aux, e = .syscallEntry t nr get aux ∧ w.m.threadCtxPtr t = 0
  · obtain ⟨t, nr, get, aux, rfl, h0⟩ := hnull
    have hi := inv_reachable hw
    have ht : w.phase t ≠ .idle := by rw [show w.phase t = _ from he]; nofun
    have hf : w.step T (.syscallEntry t nr get aux) = .error .nullDeref := by
      rw [step, Machine.sysenterSave_eq, h0]; rfl
    exact ⟨.inr ⟨hi.null_detached t ht (hi.ptr_eq t ht ▸ h0), h0, hf⟩,
      iff_of_true hf ⟨t, nr, get, aux, rfl, h0⟩⟩
  · obtain ⟨w', hs⟩ := step_ok_of_not_null hT hw he hnull
    exact ⟨.inl ⟨w', hs⟩, iff_of_false (by rw [hs]; nofun) hnull⟩

/-- Thread 1 runs with the block at `16`; the `calloc` of thread 0 failed, so its enter
dereferences NULL: the fault is reachable. -/
theorem step_ok_or_nullDeref_after_die :
    let T : SyscallDescTable := ⟨1, by decide, by decide,
      fun _ => ⟨3, 1, 0, fun i => if i.val = 1 then 10 else 0, none, none⟩⟩
    let w₁ : World :=
      { m := (World.init (fun _ => 0) (fun _ => false)).m.threadAlloc 1 (some 16)
        phase := Function.update (fun _ => .idle) 1 .running
        alloc := Function.update (fun _ => 0) 1 16
        entered := fun _ => none }
    let w : World :=
      { m := w₁.m.threadAlloc 0 none
        phase := Function.update w₁.phase 0 .running
        alloc := Function.update w₁.alloc 0 0
        entered := fun _ => none }
    let e : Event := .syscallEntry 0 0 (fun _ => 0) 0
    T.WellFormed ∧ Reachable T w ∧ w.Allowed e ∧ w.step T e = .error .nullDeref := by
  intro T w₁ w e
  have hT : T.WellFormed := ⟨fun _ => (by decide : 3 ≤ 6), fun _ => ⟨nofun, nofun⟩⟩
  have hw₁ : Reachable T w₁ := .step (.init _ _) (e := .threadStart 1 (some 16))
    ⟨rfl, fun a ha => by cases ha; exact ⟨by decide, rfl⟩⟩ rfl
  have hw : Reachable T w :=
    .step hw₁ (e := .threadStart 0 none) ⟨rfl, fun _ h => nomatch h⟩ rfl
  exact ⟨hT, hw, rfl, (step_ok_or_nullDeref hT hw (e := e) rfl).2.mpr ⟨0, 0, _, 0, rfl, rfl⟩⟩

end World

end Libdft
