import Libdft.Thread.Isolation

/-!
# The syscall protocol across interleavings

`sysenter_save` (`src/libdft/src/libdft_api.c:134–222`) and `sysexit_save` (lines 238–309)
hand a syscall over through the calling thread's own `syscall_ctx`: the number and the
argument words the enter copied, then the return word the exit stores. Pin may run any
notifications of other threads in between. `ThreadFrame` is what those leave of a thread;
from it, the exit of a known syscall acts on exactly what its enter captured, whatever ran in
between.
-/

namespace Libdft

namespace World

variable {T : SyscallDescTable}

/-! ### What other threads leave of a thread -/

/-- What notifications of other threads leave of thread `t`: its phase, its register, the
block that register names, and the context of its last enter. -/
structure ThreadFrame (t : Tid) (w w' : World) : Prop where
  phase : w'.phase t = w.phase t
  ptr : w'.m.threadCtxPtr t = w.m.threadCtxPtr t
  block : w'.m.heap (w.m.threadCtxPtr t) = w.m.heap (w.m.threadCtxPtr t)
  entered : w'.entered t = w.entered t

theorem ThreadFrame.refl (t : Tid) (w : World) : ThreadFrame t w w := ⟨rfl, rfl, rfl, rfl⟩

theorem ThreadFrame.trans {t : Tid} {w w' w'' : World} (h₁ : ThreadFrame t w w')
    (h₂ : ThreadFrame t w' w'') : ThreadFrame t w w'' where
  phase := h₂.phase.trans h₁.phase
  ptr := h₂.ptr.trans h₁.ptr
  block := by rw [← h₁.block, ← h₁.ptr]; exact h₂.block
  entered := h₂.entered.trans h₁.entered

/-- A notification of another thread keeps the frame of a live thread. -/
theorem Inv.threadFrame_step {w w' : World} (hw : Inv w) {e : Event} (ha : w.Allowed e)
    (h : w.step T e = .ok w') {t : Tid} (hte : t ≠ e.tid) (ht : w.phase t ≠ .idle) :
    ThreadFrame t w w' :=
  ⟨step_phase_ne h hte, (hw.frame ha h hte ht).1, (hw.frame ha h hte ht).2,
    step_entered_ne h hte⟩

/-- Along a schedule of other threads' notifications from a reachable world, the world stays
reachable and a live thread keeps its frame. -/
theorem run_threadFrame {w w' : World} (hw : Reachable T w) {es : List Event}
    (hs : Schedule T w es) {t : Tid} (hes : ∀ e ∈ es, e.tid ≠ t) (ht : w.phase t ≠ .idle)
    (h : w.run T es = .ok w') : Reachable T w' ∧ ThreadFrame t w w' := by
  induction es generalizing w with
  | nil => cases h; exact ⟨hw, .refl t _⟩
  | cons e es ih =>
    obtain ⟨ha, hn⟩ := hs
    obtain ⟨w₁, h₁, h⟩ := run_cons_eq_ok.mp h
    have hf := (inv_reachable hw).threadFrame_step ha h₁ (Ne.symm (hes e (.head _))) ht
    obtain ⟨hr, hf'⟩ := ih (.step hw ha h₁) (hn w₁ h₁) (fun e' he' => hes e' (.tail _ he'))
      (by rw [hf.phase]; exact ht) h
    exact ⟨hr, hf.trans hf'⟩

/-! ### Enter, other threads, exit -/

/-- An exit whose body, on the context `t`'s enter left, returns `x` succeeds and leaves the
tag store `x` returns. -/
private theorem step_syscallExit_of_entered {w : World} (hw : Inv w) {t : Tid}
    (ht : w.phase t = .inSyscall) {c : SyscallCtx} (hc : w.entered t = some c)
    {ret : Addrint} {aux : Nat} {x : SyscallCtx × Tagmap}
    (hx : sysexitSave T ret aux c w.m.tagmap = .ok x) :
    ∃ w', w.step T (.syscallExit t ret aux) = .ok w' ∧ w'.m.tagmap = x.2 := by
  obtain ⟨c', hc', hexit⟩ := hw.sysexitSave_entered T ht
  obtain rfl : c' = c := Option.some.inj (hc'.symm.trans hc)
  exact ⟨{ w with m := w.m.writeBack (w.m.threadCtxPtr t) ⟨x.1⟩ x.2
                  phase := Function.update w.phase t .running },
    by simp only [step, hexit, hx]; rfl, rfl⟩

/-- A thread enters a known syscall whose descriptor `d` captures at most six arguments, with
a `pre` that keeps the number and the arguments; notifications of other threads follow, any
number in any order. Then the thread's exit does not fault and acts on what its enter
captured. A post callback runs on the number, the argument words read at enter and the return
word. Without one, a failed syscall leaves every tag, and a successful one clears exactly the
buffers that the argument words read at enter name. -/
theorem syscall_protocol {w w₁ w₂ : World} (hw : Reachable T w) {t : Tid}
    (ht : w.phase t = .running) {nr : Addrint} {d : SyscallDesc}
    (hd : T.lookup nr.toNat = some d) (hs : d.saveArgs ||| d.retvalArgs ≠ 0) (h6 : d.nargs ≤ 6)
    (hpre : ∀ f ∈ d.pre, ∀ c tm, (f c tm).1.nr = c.nr ∧ (f c tm).1.arg = c.arg)
    {get : Nat → Addrint} {aux : Nat} (h₁ : w.step T (.syscallEntry t nr get aux) = .ok w₁)
    {es : List Event} (hsch : Schedule T w₁ es) (hes : ∀ e ∈ es, e.tid ≠ t)
    (h₂ : w₁.run T es = .ok w₂) (ret : Addrint) (aux' : Nat) :
    ∃ w₃, w₂.step T (.syscallExit t ret aux') = .ok w₃ ∧
      (∀ f, d.post = some f → ∃ c, c.nr = (nr.toNat : Int) ∧
        (∀ i : Fin 6, i.val < d.nargs → c.arg i = get i) ∧ c.ret = ret ∧
        w₃.m.tagmap = (f c w₂.m.tagmap).2) ∧
      (d.post = none → ret.toInt < 0 → w₃.m.tagmap = w₂.m.tagmap) ∧
      (d.post = none → 0 ≤ ret.toInt →
        ClearsExactly d (fun i => get i) d.nargs w₂.m.tagmap w₃.m.tagmap) := by
  -- the enter records what `sysenter_save` left, and other threads keep it
  obtain ⟨tc₀, -, rfl⟩ := step_syscallEntry_eq h₁
  obtain ⟨hnr, harg⟩ :=
    sysenterSave_captured T nr get aux tc₀.syscallCtx w.m.tagmap hd hs hpre
  obtain ⟨hr₂, hf⟩ := run_threadFrame (.step hw (e := .syscallEntry t nr get aux) ht h₁)
    hsch hes (by simp only [Function.update_same]; nofun) h₂
  have hp₂ : w₂.phase t = .inSyscall := by rw [hf.phase]; exact Function.update_same _ _ _
  have he₂ := hf.entered.trans (Function.update_same _ _ _)
  generalize (sysenterSave T nr get aux tc₀.syscallCtx w.m.tagmap).1 = c₁ at hnr harg he₂
  -- what the exit reads back
  have hnr' : c₁.nr = nr.toNat := hnr.trans (toInt_of_known T (T.lt_of_lookup_eq_some hd))
  have h0 : 0 ≤ c₁.nr := by rw [hnr']; exact Int.natCast_nonneg _
  have hd' : T.lookup c₁.nr.toNat = some d := by rw [hnr', Int.toNat_natCast]; exact hd
  have hget (i : Fin 6) (hi : i.val < d.nargs) : c₁.arg i = get i := by
    rw [harg, copyArgs_apply_of_le h6, if_pos hi]
  -- the exit succeeds with whatever its body returns
  have hexit {x} (hx : sysexitSave T ret aux' c₁ w₂.m.tagmap = .ok x) :=
    step_syscallExit_of_entered (inv_reachable hr₂) hp₂ he₂ hx
  cases hp : d.post with
  | some f =>
    obtain ⟨w₃, h₃, htm⟩ := hexit (sysexitSave_of_post T ret aux' c₁ _ h0 hd' hs hp)
    refine ⟨w₃, h₃, fun f' hf' => ?_, nofun, nofun⟩
    obtain rfl := Option.some.inj hf'
    exact ⟨{ c₁ with ret := ret, aux := aux' }, hnr', hget, rfl, htm⟩
  | none =>
    by_cases hr : ret.toInt < 0
    · obtain ⟨w₃, h₃, htm⟩ := hexit (sysexitSave_of_failed T ret aux' c₁ _ h0 hd' hs hp hr)
      exact ⟨w₃, h₃, nofun, fun _ _ => htm, fun _ h => absurd h (Int.not_le.mpr hr)⟩
    · obtain ⟨tm', hl, hce⟩ := clearArgs_spec d (fun i => get i) w₂.m.tagmap h6
      have hx : sysexitSave T ret aux' c₁ w₂.m.tagmap =
          .ok ({ c₁ with ret := ret, aux := aux' }, tm') := by
        rw [sysexitSave_of_default T ret aux' c₁ _ h0 hd' hs hp (Int.not_lt.mp hr),
          clearArgs_congr d _ _ hget, hl]
        rfl
      obtain ⟨w₃, h₃, htm⟩ := hexit hx
      exact ⟨w₃, h₃, nofun, fun _ h => absurd h hr, fun _ _ => htm ▸ hce⟩

/-- Thread 0 reads ten bytes into a buffer at `4096` while thread 1 starts. -/
theorem syscall_protocol_read_while_start :
    let d : SyscallDesc := ⟨3, 0, 1, fun i => if i.val = 1 then 10 else 0, none, none⟩
    let T : SyscallDescTable := ⟨1, by decide, by decide, fun _ => d⟩
    let w : World :=
      { m := (World.init (fun _ => 0) (fun _ => true)).m.threadAlloc 0 (some 8)
        phase := Function.update (fun _ => .idle) 0 .running
        alloc := Function.update (fun _ => 0) 0 8
        entered := fun _ => none }
    let get : Nat → Addrint := fun i => if i = 1 then 4096 else 10
    let es : List Event := [.threadStart 1 (some 16)]
    ∃ w₁ w₂, Reachable T w ∧ w.phase 0 = .running ∧
      T.lookup (0 : Addrint).toNat = some d ∧ d.saveArgs ||| d.retvalArgs ≠ 0 ∧ d.nargs ≤ 6 ∧
      (∀ f ∈ d.pre, ∀ c tm, (f c tm).1.nr = c.nr ∧ (f c tm).1.arg = c.arg) ∧
      w.step T (.syscallEntry 0 0 get 0) = .ok w₁ ∧ Schedule T w₁ es ∧
      (∀ e ∈ es, e.tid ≠ 0) ∧ w₁.run T es = .ok w₂ ∧
      ∃ w₃, w₂.step T (.syscallExit 0 10 0) = .ok w₃ ∧
        (∀ f, d.post = some f → ∃ c, c.nr = ((0 : Addrint).toNat : Int) ∧
          (∀ i : Fin 6, i.val < d.nargs → c.arg i = get i) ∧ c.ret = 10 ∧
          w₃.m.tagmap = (f c w₂.m.tagmap).2) ∧
        (d.post = none → (10 : Addrint).toInt < 0 → w₃.m.tagmap = w₂.m.tagmap) ∧
        (d.post = none → 0 ≤ (10 : Addrint).toInt →
          ClearsExactly d (fun i => get i) d.nargs w₂.m.tagmap w₃.m.tagmap) := by
  intro d T w get es
  have hw : Reachable T w := .step (.init _ _) (e := .threadStart 0 (some 8))
    ⟨rfl, fun a ha => by cases ha; exact ⟨by decide, rfl⟩⟩ rfl
  have hA : ((w.step T (.syscallEntry 0 0 get 0)).toOption.map fun w₁ =>
      decide (w₁.phase 1 = .idle) && (w₁.m.heap 16).isNone) = some true := by decide
  have hR : ((w.step T (.syscallEntry 0 0 get 0)).toOption.bind fun w₁ =>
      (w₁.run T es).toOption).isSome = true := by decide
  cases h₁ : w.step T (.syscallEntry 0 0 get 0) with
  | error => rw [h₁] at hA; cases hA
  | ok w₁ =>
    rw [h₁] at hA hR
    simp only [Except.toOption, Option.map_some', Option.some.injEq, Bool.and_eq_true,
      decide_eq_true_eq, Option.isNone_iff_eq_none, Option.some_bind] at hA hR
    have hsch : Schedule T w₁ es :=
      ⟨⟨hA.1, fun a ha => by cases ha; exact ⟨by decide, hA.2⟩⟩, fun _ _ => trivial⟩
    have hes : ∀ e ∈ es, e.tid ≠ 0 := by decide
    cases h₂ : w₁.run T es with
    | error => rw [h₂] at hR; cases hR
    | ok w₂ =>
      have hpre : ∀ f ∈ d.pre, ∀ c tm, (f c tm).1.nr = c.nr ∧ (f c tm).1.arg = c.arg :=
        fun _ h => (nomatch h)
      have hd : T.lookup (0 : Addrint).toNat = some d := rfl
      exact ⟨w₁, w₂, hw, rfl, hd, by decide, by decide, hpre, rfl, hsch, hes, h₂,
        syscall_protocol hw (t := 0) rfl hd (by decide) (by decide) hpre h₁ hsch hes h₂ 10 0⟩

end World

end Libdft
