import Libdft.Syscall.Context

/-!
# Syscall enter: `sysenter_save`

`src/libdft/src/libdft_api.c:134–222`. The body runs on the calling thread's syscall
context and the shared tag store; reading the context pointer out of the thread's spilled
register is the machine's part (`Libdft.Thread.Machine`).
The argument copy is the fallthrough `switch` of lines 169–210. Its cases `1`–`6` copy the
arguments below the case label; `default` copies nothing, also for counts above six.
-/

namespace Libdft

/-- `arg[i] = v`, on the slot `i` names. -/
def setArg (a : Args) (i : Nat) (v : Addrint) : Args :=
  fun j => if j.val = i then v else a j

/-- The statements from `case k` down to `case 1` of the switch: case `i + 1` copies
`PIN_GetSyscallArgument(ctx, std, i)` and falls through to case `i`. -/
def fallFrom (get : Nat → Addrint) : Nat → Args → Args
  | 0, a => a
  | k + 1, a => fallFrom get k (setArg a k (get k))

/-- The `switch (syscall_desc[syscall_nr].nargs)` of lines 169–210. -/
def copyArgs (nargs : Nat) (get : Nat → Addrint) (a : Args) : Args :=
  match nargs with
  | 1 | 2 | 3 | 4 | 5 | 6 => fallFrom get nargs a
  | _ => a

/-- The bounded loop that the spec's design notes put in place of the switch: it copies
exactly `min nargs 6` words. -/
def copyArgsLoop (nargs : Nat) (get : Nat → Addrint) (a : Args) : Args :=
  fun j => if j.val < min nargs 6 then get j else a j

theorem fallFrom_apply (get : Nat → Addrint) (k : Nat) (a : Args) (j : Fin 6) :
    fallFrom get k a j = if j.val < k then get j else a j := by
  induction k generalizing a with
  | zero => simp [fallFrom]
  | succ k ih =>
    rw [fallFrom, ih]
    by_cases hj : j.val < k
    · simp [hj, Nat.lt_succ_of_lt hj]
    · by_cases hk : j.val = k <;> simp [setArg, hj, hk, Nat.lt_succ_iff_lt_or_eq]

/-- Up to six declared arguments, the switch copies exactly the slots below the count. -/
theorem copyArgs_apply_of_le {nargs : Nat} (h : nargs ≤ 6) (get : Nat → Addrint)
    (a : Args) (j : Fin 6) :
    copyArgs nargs get a j = if j.val < nargs then get j else a j := by
  rw [← fallFrom_apply]
  match nargs, h with
  | 0, _ | 1, _ | 2, _ | 3, _ | 4, _ | 5, _ | 6, _ => rfl

/-- Above six declared arguments the switch takes `default` and copies nothing. -/
theorem copyArgs_of_gt {nargs : Nat} (h : 6 < nargs) (get : Nat → Addrint) (a : Args) :
    copyArgs nargs get a = a := by
  match nargs, h with
  | n + 7, _ => rfl

/-- Up to six declared arguments, the switch is the spec's bounded loop. -/
theorem copyArgs_eq_loop {nargs : Nat} (h : nargs ≤ 6) (get : Nat → Addrint) (a : Args) :
    copyArgs nargs get a = copyArgsLoop nargs get a := by
  funext j
  rw [copyArgs_apply_of_le h, copyArgsLoop, Nat.min_eq_left h]

/-- `if (pre != NULL) pre(&thread_ctx->syscall_ctx)`. -/
def callPre (pre : Option SyscallCallback) (c : SyscallCtx) (tm : Tagmap) :
    SyscallCtx × Tagmap :=
  match pre with
  | some f => f c tm
  | none => (c, tm)

/-- A `pre` that sets no tag keeps `callPre` from setting one. -/
theorem callPre_le {pre : Option SyscallCallback} (h : ∀ f ∈ pre, ∀ c tm, (f c tm).2 ≤ tm)
    (c : SyscallCtx) (tm : Tagmap) : (callPre pre c tm).2 ≤ tm := by
  cases pre with
  | none => exact le_rfl
  | some f => exact h f rfl c tm

/-- `sysenter_save` (lines 134–222) on the thread's syscall context `c` and the tag store:
`syscallNr` is `PIN_GetSyscallNumber`, `get i` is `PIN_GetSyscallArgument(ctx, std, i)` and
`aux` the notification's `CONTEXT *`. -/
def sysenterSave (T : SyscallDescTable) (syscallNr : Addrint) (get : Nat → Addrint)
    (aux : Nat) (c : SyscallCtx) (tm : Tagmap) : SyscallCtx × Tagmap :=
  if h : T.syscallMax ≤ syscallNr.toNat then ({ c with nr := -1 }, tm)
  else
    let c := { c with nr := syscallNr.toInt }
    let d := T.desc ⟨syscallNr.toNat, Nat.lt_of_not_le h⟩
    if d.saveArgs ||| d.retvalArgs ≠ 0 then
      callPre d.pre { c with arg := copyArgs d.nargs get c.arg, aux := aux } tm
    else (c, tm)

section Spec

variable (T : SyscallDescTable) (n : Addrint) (get : Nat → Addrint) (aux : Nat)
  (c : SyscallCtx) (tm : Tagmap)

/-- An unknown syscall only marks the context with the sentinel `-1`. -/
theorem sysenterSave_of_le (h : T.syscallMax ≤ n.toNat) :
    sysenterSave T n get aux c tm = ({ c with nr := -1 }, tm) := by
  simp [sysenterSave, h]

variable {d : SyscallDesc} (hd : T.lookup n.toNat = some d)
include hd

/-- A known syscall whose descriptor asks for no capture only records its number. -/
theorem sysenterSave_of_noSave (hs : d.saveArgs ||| d.retvalArgs = 0) :
    sysenterSave T n get aux c tm = ({ c with nr := n.toInt }, tm) := by
  obtain ⟨h, rfl⟩ := (T.lookup_eq_some_iff _ _).mp hd
  simp [sysenterSave, Nat.not_le_of_lt h, hs]

/-- A known syscall with capture copies the arguments, records `aux`, then calls `pre`. -/
theorem sysenterSave_of_save (hs : d.saveArgs ||| d.retvalArgs ≠ 0) :
    sysenterSave T n get aux c tm =
      callPre d.pre { c with nr := n.toInt, arg := copyArgs d.nargs get c.arg, aux := aux } tm := by
  obtain ⟨h, rfl⟩ := (T.lookup_eq_some_iff _ _).mp hd
  simp [sysenterSave, Nat.not_le_of_lt h, hs]

/-- With a `pre` that keeps `nr` and the argument slots, a capturing enter leaves the number
in `nr` and the words the switch copied in `arg`. -/
theorem sysenterSave_captured (hs : d.saveArgs ||| d.retvalArgs ≠ 0)
    (hpre : ∀ f ∈ d.pre, ∀ c tm, (f c tm).1.nr = c.nr ∧ (f c tm).1.arg = c.arg) :
    (sysenterSave T n get aux c tm).1.nr = n.toInt ∧
      (sysenterSave T n get aux c tm).1.arg = copyArgs d.nargs get c.arg := by
  rw [sysenterSave_of_save T n get aux c tm hd hs]
  cases hp : d.pre with
  | none => exact ⟨rfl, rfl⟩
  | some f => exact hpre f hp _ tm

omit hd in
/-- With callbacks that keep `nr`, enter leaves the sentinel or a known number in `nr`. -/
theorem sysenterSave_nr (hT : T.KeepsNr) :
    (sysenterSave T n get aux c tm).1.nr =
      if T.syscallMax ≤ n.toNat then -1 else (n.toNat : Int) := by
  by_cases h : T.syscallMax ≤ n.toNat
  · simp [sysenterSave_of_le T n get aux c tm h, h]
  have hlt := Nat.lt_of_not_le h
  have hd := T.lookup_of_lt hlt
  have hn := toInt_of_lt n (Nat.lt_of_lt_of_le hlt T.syscallMax_le)
  rw [if_neg h]
  by_cases hs : (T.desc ⟨_, hlt⟩).saveArgs ||| (T.desc ⟨_, hlt⟩).retvalArgs = 0
  · simp [sysenterSave_of_noSave T n get aux c tm hd hs, hn]
  · rw [sysenterSave_of_save T n get aux c tm hd hs]
    cases hp : (T.desc ⟨_, hlt⟩).pre with
    | none => simp [callPre, hn]
    | some f => simp [callPre, (hT _).1 f hp, hn]

omit hd in
/-- With callbacks that set no tag, enter sets none. -/
theorem sysenterSave_le (hT : T.SetsNoTag) : (sysenterSave T n get aux c tm).2 ≤ tm := by
  by_cases h : T.syscallMax ≤ n.toNat
  · rw [sysenterSave_of_le T n get aux c tm h]
  have hd := T.lookup_of_lt (Nat.lt_of_not_le h)
  by_cases hs : (T.desc ⟨_, Nat.lt_of_not_le h⟩).saveArgs |||
      (T.desc ⟨_, Nat.lt_of_not_le h⟩).retvalArgs = 0
  · rw [sysenterSave_of_noSave T n get aux c tm hd hs]
  · rw [sysenterSave_of_save T n get aux c tm hd hs]
    exact callPre_le ((hT _).1) _ tm

omit hd in
/-- With tag-blind callbacks, enter leaves the tag store, and the context it leaves does not
depend on the tags. -/
theorem sysenterSave_tagBlind (hT : T.TagBlind) (tm' : Tagmap) :
    sysenterSave T n get aux c tm = ((sysenterSave T n get aux c tm').1, tm) := by
  by_cases h : T.syscallMax ≤ n.toNat
  · rw [sysenterSave_of_le T n get aux c tm h, sysenterSave_of_le T n get aux c tm' h]
  have hd := T.lookup_of_lt (Nat.lt_of_not_le h)
  by_cases hs : (T.desc ⟨_, Nat.lt_of_not_le h⟩).saveArgs |||
      (T.desc ⟨_, Nat.lt_of_not_le h⟩).retvalArgs = 0
  · rw [sysenterSave_of_noSave T n get aux c tm hd hs,
      sysenterSave_of_noSave T n get aux c tm' hd hs]
  · rw [sysenterSave_of_save T n get aux c tm hd hs, sysenterSave_of_save T n get aux c tm' hd hs]
    cases hp : (T.desc ⟨_, Nat.lt_of_not_le h⟩).pre with
    | none => rfl
    | some f => exact (hT _).1 f hp _ tm tm'

end Spec

end Libdft
