import Libdft.Syscall.Exit

/-!
# The enter/exit handshake

`sysenter_save` (`src/libdft/src/libdft_api.c:134–222`) and `sysexit_save` (lines
238–309) talk through the thread's syscall context only: the `int` field `nr`, written
from a `size_t` with `-1` for an unknown number, and the argument slots that the
write-back loop reads back.
-/

namespace Libdft

/-! ### The syscall number -/

/-- A known number survives the narrowing of line 155 to `int`. -/
theorem toInt_of_known (T : SyscallDescTable) {n : Addrint} (hn : n.toNat < T.syscallMax) :
    n.toInt = n.toNat :=
  toInt_of_lt n (Nat.lt_of_lt_of_le hn T.syscallMax_le)

/-- Capture on a known syscall whose descriptor `d` sets a capture flag. Up to six declared
arguments the switch is the bounded loop: it copies exactly the slots below `nargs`, leaves
the others and the tag store alone, records `aux`, and only then calls `pre`; the exit's
write-back loop stays inside the six slots and reads only slots this enter wrote. Above six,
`default` copies nothing and the write-back loop faults on `map_args[6]`. -/
theorem sysenterSave_capture (T : SyscallDescTable) {n : Addrint} {d : SyscallDesc}
    (hd : T.lookup n.toNat = some d) (hs : d.saveArgs ||| d.retvalArgs ≠ 0)
    (get : Nat → Addrint) (aux : Nat) (c : SyscallCtx) (tm : Tagmap) :
    (d.nargs ≤ 6 →
      sysenterSave T n get aux c tm =
        callPre d.pre
          { c with nr := n.toNat, arg := copyArgsLoop d.nargs get c.arg, aux := aux } tm ∧
      (∀ a tm', ∃ tm'', clearArgs d a tm' d.nargs = .ok tm'') ∧
      ∀ tm', clearArgs d (copyArgsLoop d.nargs get c.arg) tm' d.nargs =
        clearArgs d (fun i => get i) tm' d.nargs) ∧
    (6 < d.nargs →
      sysenterSave T n get aux c tm = callPre d.pre { c with nr := n.toNat, aux := aux } tm ∧
      ∀ a tm', clearArgs d a tm' d.nargs = .error .argOutOfBounds) := by
  have hn := toInt_of_known T (SyscallDescTable.lt_of_lookup_eq_some hd)
  refine ⟨fun h6 => ⟨?_, fun a tm' => (clearArgs_spec d a tm' h6).imp fun _ h => h.1,
    fun tm' => clearArgs_congr d tm' _ fun i hi => ?_⟩, fun h7 => ⟨?_, fun a tm' =>
      clearArgs_of_gt d a tm' h7⟩⟩
  · rw [sysenterSave_of_save T n get aux c tm hd hs, copyArgs_eq_loop h6, hn]
  · simp [copyArgsLoop, Nat.min_eq_left h6, hi]
  · rw [sysenterSave_of_save T n get aux c tm hd hs, copyArgs_of_gt h7, hn]

/-- A three-argument descriptor with capture and no callbacks. -/
theorem sysenterSave_capture_three :
    let d : SyscallDesc := ⟨3, 1, 0, fun _ => 0, none, none⟩
    let T : SyscallDescTable := ⟨1, by decide, by decide, fun _ => d⟩
    let c : SyscallCtx := ⟨0, fun _ => 0, 0, 0⟩
    (T.lookup (0 : Addrint).toNat = some d ∧ d.saveArgs ||| d.retvalArgs ≠ 0) ∧
    (d.nargs ≤ 6 →
      sysenterSave T 0 (fun i => i) 0 c (fun _ => false) =
        callPre d.pre
          { c with nr := (0 : Addrint).toNat, arg := copyArgsLoop d.nargs (fun i => i) c.arg,
                   aux := 0 } (fun _ => false) ∧
      (∀ a tm', ∃ tm'', clearArgs d a tm' d.nargs = .ok tm'') ∧
      ∀ tm', clearArgs d (copyArgsLoop d.nargs (fun i => i) c.arg) tm' d.nargs =
        clearArgs d (fun i => (i.val : Addrint)) tm' d.nargs) ∧
    (6 < d.nargs →
      sysenterSave T 0 (fun i => i) 0 c (fun _ => false) =
        callPre d.pre { c with nr := (0 : Addrint).toNat, aux := 0 } (fun _ => false) ∧
      ∀ a tm', clearArgs d a tm' d.nargs = .error .argOutOfBounds) := by
  intro d T c
  exact ⟨⟨rfl, by decide⟩,
    sysenterSave_capture T (n := 0) (d := d) rfl (by decide) (fun i => i) 0 c fun _ => false⟩

/-- With seven declared arguments the switch copies no argument, where a loop over
`min nargs 6` slots would copy six. -/
theorem sysenterSave_seven_args_copies_nothing :
    let T : SyscallDescTable := ⟨1, by decide, by decide,
      fun _ => ⟨7, 1, 0, fun _ => 0, none, none⟩⟩
    (sysenterSave T 0 (fun _ => 1) 0 ⟨0, fun _ => 0, 0, 0⟩ (fun _ => false)).1.arg 0 ≠ 1 := by
  decide

end Libdft
