import Libdft.Thread.Isolation

/-!
# The unknown-syscall sentinel across runs

`sysenter_save` marks an unknown syscall with `nr = -1` (line 149) and `sysexit_save`
skips any negative `nr` (line 252). When the callbacks keep `nr`, every context of a
reachable world holds the sentinel or a known number, the zero-filled context of
`thread_alloc` included, so the exit's `syscall_desc[nr]` never leaves the table.
-/

namespace Libdft

variable {T : SyscallDescTable}

/-- The number in a syscall context is the sentinel or a known syscall. -/
def NrValid (T : SyscallDescTable) (c : SyscallCtx) : Prop :=
  c.nr = -1 ∨ (0 ≤ c.nr ∧ c.nr < T.syscallMax)

/-- Enter leaves the sentinel or a known number. -/
theorem sysenterSave_nrValid (hT : T.KeepsNr) (n : Addrint) (get : Nat → Addrint) (aux : Nat)
    (c : SyscallCtx) (tm : Tagmap) : NrValid T (sysenterSave T n get aux c tm).1 := by
  unfold NrValid
  rw [sysenterSave_nr T n get aux c tm hT]
  split
  · exact .inl rfl
  · exact .inr ⟨Int.natCast_nonneg _, Int.ofNat_lt.mpr (Nat.lt_of_not_le ‹_›)⟩

/-- Exit never writes `nr`. -/
theorem sysexitSave_nr (hT : T.KeepsNr) {r : Addrint} {aux : Nat} {c c' : SyscallCtx}
    {tm tm' : Tagmap} (h : sysexitSave T r aux c tm = .ok (c', tm')) : c'.nr = c.nr := by
  by_cases h0 : c.nr < 0
  · rw [sysexitSave_of_neg T r aux c tm h0] at h; cases h; rfl
  have h0 : 0 ≤ c.nr := Int.not_lt.mp h0
  cases hd : T.lookup c.nr.toNat with
  | none => rw [sysexitSave_of_lookup_none T r aux c tm h0 hd] at h; cases h
  | some d =>
    rcases sysexitSave_cases T r aux c tm h0 hd with hx | ⟨f, hp, hx⟩ | hx | hx <;> rw [hx] at h
    · cases h; rfl
    · obtain ⟨_, rfl⟩ := (T.lookup_eq_some_iff _ _).mp hd
      have hc' : (f _ tm).1 = c' := congrArg Prod.fst (Except.ok.inj h)
      rw [← hc', (hT _).2 f hp]
    · cases h; rfl
    · cases hc : clearArgs d c.arg tm d.nargs <;> rw [hc] at h <;> cases h
      rfl

namespace Machine

/-- Every context in the heap holds the sentinel or a known number. -/
def NrInv (T : SyscallDescTable) (m : Machine) : Prop :=
  ∀ a tc, m.heap a = some tc → NrValid T tc.syscallCtx

/-- Writing back a context with a valid number keeps the invariant. -/
private theorem nrInv_writeBack {m : Machine} (hm : m.NrInv T) (p : Nat) {c : SyscallCtx}
    (hc : NrValid T c) (tm : Tagmap) : (m.writeBack p ⟨c⟩ tm).NrInv T := by
  intro a tc ha
  simp only [writeBack, Function.update_apply] at ha
  split at ha
  · cases ha; exact hc
  · exact hm a tc ha

/-- Any notification keeps the invariant, when the callbacks keep `nr`. -/
theorem nrInv_step (hT : T.KeepsNr) {m m' : Machine} (hm : m.NrInv T) {e : Event}
    (h : m.step T e = .ok m') : m'.NrInv T := by
  cases e with
  | threadStart t blk =>
    cases h
    intro a tc ha
    cases blk with
    | none => exact hm a tc ha
    | some b =>
      simp only [threadAlloc_some, Function.update_apply] at ha
      split at ha
      · cases ha; exact .inr ⟨Int.le_refl 0, Int.ofNat_lt.mpr T.syscallMax_pos⟩
      · exact hm a tc ha
  | threadFini t =>
    rcases threadFree_ok h with rfl | rfl
    · exact hm
    · intro a tc ha
      by_cases hp : a = m.threadCtxPtr t
      · subst hp; simp at ha
      · exact hm a tc (by simpa [Function.update_noteq hp] using ha)
  | syscallEntry t nr get aux =>
    obtain ⟨tc, -, rfl⟩ := sysenterSave_ok h
    exact nrInv_writeBack hm _ (sysenterSave_nrValid hT _ _ _ _ _) _
  | syscallExit t ret aux =>
    obtain ⟨tc, c, tm, hd, hx, rfl⟩ := sysexitSave_ok h
    have hv := hm _ tc ((deref_eq_ok_iff _ _ _).mp hd).2
    refine nrInv_writeBack hm _ ?_ tm
    unfold NrValid at hv ⊢
    rwa [sysexitSave_nr hT hx]

end Machine

namespace World

/-- Every reachable world keeps the sentinel or a known number in each context. -/
theorem nrInv_reachable (hT : T.KeepsNr) {w : World} (h : Reachable T w) : w.m.NrInv T := by
  induction h with
  | init => intro _ _ h; cases h
  | step _ _ hs ih =>
    exact Machine.nrInv_step hT ih (by rw [← step_m, hs]; rfl)

end World

end Libdft
