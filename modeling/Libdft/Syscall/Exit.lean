import Libdft.Syscall.Enter

/-!
# Syscall exit: `sysexit_save` and the default tag-clearing policy

`src/libdft/src/libdft_api.c:238–309`. The write-back loop of lines 294–306 reads
`map_args[i]` and `arg[i]` for every `i < nargs`; both arrays have six slots, so an
index past them is the fault `argOutOfBounds`, and a syscall number past the table is
`descOutOfBounds`.
-/

namespace Libdft

/-- Modelled from the spec: the type of `syscall_ctx_t.ret` is declared in `libdft_api.h`,
which is not under src/. The spec's default policy reads "the return value signals failure
(negative)", so `thread_ctx->syscall_ctx.ret < 0` (line 289) reads the word as signed. -/
def retLtZero (ret : Addrint) : Bool := decide (ret.toInt < 0)

/-- Iteration `i` of the write-back loop (lines 296–306). -/
def clearArg (d : SyscallDesc) (arg : Args) (tm : Tagmap) (i : Nat) : Except Fault Tagmap :=
  if h : i < 6 then
    if d.mapArgs ⟨i, h⟩ > 0 then
      if arg ⟨i, h⟩ ≠ 0 then .ok (tagmapClrn tm (arg ⟨i, h⟩) (d.mapArgs ⟨i, h⟩))
      else .ok tm
    else .ok tm
  else .error .argOutOfBounds

/-- The first `k` iterations of `for (i = 0; i < nargs; i++)` (line 294). -/
def clearArgs (d : SyscallDesc) (arg : Args) (tm : Tagmap) : Nat → Except Fault Tagmap
  | 0 => .ok tm
  | k + 1 => (clearArgs d arg tm k).bind fun tm => clearArg d arg tm k

/-- The body of `sysexit_save` after the number test (lines 258–307), on the descriptor `d`
that `syscall_desc[syscall_nr]` reads. -/
def sysexitSaveDesc (d : SyscallDesc) (ret : Addrint) (aux : Nat) (c : SyscallCtx)
    (tm : Tagmap) : Except Fault (SyscallCtx × Tagmap) :=
  if d.saveArgs ||| d.retvalArgs ≠ 0 then
    let c := { c with ret := ret, aux := aux }
    match d.post with
    | some f => .ok (f c tm)
    | none =>
      if retLtZero c.ret then .ok (c, tm)
      else (clearArgs d c.arg tm d.nargs).map fun tm => (c, tm)
  else .ok (c, tm)

/-- `sysexit_save` (lines 238–309) on the thread's syscall context `c` and the tag store:
`ret` is `PIN_GetSyscallReturn` and `aux` the notification's `CONTEXT *`. -/
def sysexitSave (T : SyscallDescTable) (ret : Addrint) (aux : Nat) (c : SyscallCtx)
    (tm : Tagmap) : Except Fault (SyscallCtx × Tagmap) :=
  if c.nr < 0 then .ok (c, tm)
  else
    match T.lookup c.nr.toNat with
    | none => .error .descOutOfBounds
    | some d => sysexitSaveDesc d ret aux c tm

/-! ### The write-back loop -/

/-- Byte `a` lies in a buffer that one of the iterations `i < k` clears: `map_args[i] > 0`
bytes from a non-NULL `arg[i]`. -/
def Cleared (d : SyscallDesc) (arg : Args) (k a : Nat) : Prop :=
  ∃ i : Fin 6, i.val < k ∧ 0 < d.mapArgs i ∧ arg i ≠ 0 ∧
    (arg i).toNat ≤ a ∧ a < (arg i).toNat + d.mapArgs i

/-- `tm'` is `tm` with the bytes of the first `k` iterations cleared and no other byte changed. -/
def ClearsExactly (d : SyscallDesc) (arg : Args) (k : Nat) (tm tm' : Tagmap) : Prop :=
  ∀ a, (Cleared d arg k a → tm' a = false) ∧ (¬ Cleared d arg k a → tm' a = tm a)

theorem clearArg_of_lt (d : SyscallDesc) (arg : Args) (tm : Tagmap) (i : Fin 6) :
    clearArg d arg tm i = .ok (if 0 < d.mapArgs i ∧ arg i ≠ 0 then
      tagmapClrn tm (arg i) (d.mapArgs i) else tm) := by
  simp only [clearArg, i.isLt, dite_true, Fin.eta, gt_iff_lt]
  split_ifs <;> simp_all

private theorem cleared_succ (d : SyscallDesc) (arg : Args) (i : Fin 6) (a : Nat) :
    Cleared d arg (i.val + 1) a ↔ Cleared d arg i a ∨
      (0 < d.mapArgs i ∧ arg i ≠ 0 ∧ (arg i).toNat ≤ a ∧ a < (arg i).toNat + d.mapArgs i) := by
  constructor
  · rintro ⟨j, hj, hrest⟩
    rcases Nat.lt_succ_iff_lt_or_eq.mp hj with hj | hj
    · exact .inl ⟨j, hj, hrest⟩
    · exact .inr (Fin.ext hj ▸ hrest)
  · rintro (⟨j, hj, hrest⟩ | hi)
    · exact ⟨j, Nat.lt_succ_of_lt hj, hrest⟩
    · exact ⟨i, Nat.lt_succ_self _, hi⟩

/-- Up to six iterations, the loop never faults and clears exactly the `Cleared` bytes. -/
theorem clearArgs_spec (d : SyscallDesc) (arg : Args) (tm : Tagmap) {k : Nat} (hk : k ≤ 6) :
    ∃ tm', clearArgs d arg tm k = .ok tm' ∧ ClearsExactly d arg k tm tm' := by
  induction k with
  | zero => exact ⟨tm, rfl, fun a => ⟨fun ⟨_, hi, _⟩ => absurd hi (Nat.not_lt_zero _),
      fun _ => rfl⟩⟩
  | succ k ih =>
    obtain ⟨tm₁, h₁, hc₁⟩ := ih (Nat.le_of_succ_le hk)
    let i : Fin 6 := ⟨k, hk⟩
    refine ⟨_, by rw [clearArgs, h₁]; exact clearArg_of_lt d arg tm₁ i, fun a => ?_⟩
    rw [cleared_succ d arg i a]
    by_cases hnew : 0 < d.mapArgs i ∧ arg i ≠ 0 ∧ (arg i).toNat ≤ a ∧
        a < (arg i).toNat + d.mapArgs i
    · have hclr : (if 0 < d.mapArgs i ∧ arg i ≠ 0 then tagmapClrn tm₁ (arg i) (d.mapArgs i)
          else tm₁) a = false := by
        rw [if_pos ⟨hnew.1, hnew.2.1⟩, tagmapClrn_apply, if_pos hnew.2.2]
      exact ⟨fun _ => hclr, fun hn => absurd (.inr hnew) hn⟩
    · have hkeep : (if 0 < d.mapArgs i ∧ arg i ≠ 0 then tagmapClrn tm₁ (arg i) (d.mapArgs i)
          else tm₁) a = tm₁ a := by
        split_ifs with hi
        · rw [tagmapClrn_apply, if_neg fun hr => hnew ⟨hi.1, hi.2, hr⟩]
        · rfl
      rw [or_iff_left hnew, hkeep]
      exact hc₁ a

/-- An iteration of the write-back loop only clears. -/
theorem clearArg_le {d : SyscallDesc} {arg : Args} {tm tm' : Tagmap} {i : Nat}
    (h : clearArg d arg tm i = .ok tm') : tm' ≤ tm := by
  simp only [clearArg] at h
  split_ifs at h <;> cases h
  · exact tagmapClrn_le _ _ _
  · exact le_rfl
  · exact le_rfl

/-- The write-back loop only clears, however many iterations it runs. -/
theorem clearArgs_le {d : SyscallDesc} {arg : Args} {tm : Tagmap} {k : Nat} {tm' : Tagmap}
    (h : clearArgs d arg tm k = .ok tm') : tm' ≤ tm := by
  induction k generalizing tm' with
  | zero => cases h; exact le_rfl
  | succ k ih =>
    rw [clearArgs] at h
    cases h₁ : clearArgs d arg tm k with
    | error => rw [h₁] at h; cases h
    | ok tm₁ =>
      rw [h₁] at h
      exact le_trans (clearArg_le (show clearArg d arg tm₁ k = .ok tm' from h)) (ih h₁)

/-- From the seventh iteration on, the loop reads `map_args[6]` and faults. -/
theorem clearArgs_of_gt (d : SyscallDesc) (arg : Args) (tm : Tagmap) {k : Nat} (hk : 6 < k) :
    clearArgs d arg tm k = .error .argOutOfBounds := by
  induction k with
  | zero => omega
  | succ k ih =>
    rw [clearArgs]
    rcases Nat.lt_or_ge 6 k with h | h
    · rw [ih h]; rfl
    · obtain ⟨tm', h', -⟩ := clearArgs_spec d arg tm h
      rw [h']
      simp [Except.bind, clearArg, show ¬ k < 6 by omega]

/-- The loop clears the same bytes whatever the tags: on any tag store it leaves that store
with the bytes it clears on the all-tainted store cleared, and it faults alike. -/
theorem clearArgs_eq_map (d : SyscallDesc) (arg : Args) (tm : Tagmap) (k : Nat) :
    clearArgs d arg tm k =
      (clearArgs d arg (fun _ => true) k).map fun tm₁ a => if !tm₁ a then false else tm a := by
  rcases Nat.lt_or_ge 6 k with hk | hk
  · rw [clearArgs_of_gt d arg tm hk, clearArgs_of_gt d arg _ hk]; rfl
  obtain ⟨tm', h, hc⟩ := clearArgs_spec d arg tm hk
  obtain ⟨tm₁, h₁, hc₁⟩ := clearArgs_spec d arg (fun _ => true) hk
  rw [h, h₁]
  refine congrArg Except.ok (funext fun a => ?_)
  dsimp only
  by_cases ha : Cleared d arg k a
  · rw [(hc a).1 ha, (hc₁ a).1 ha]; rfl
  · rw [(hc a).2 ha, (hc₁ a).2 ha]; rfl

/-- The loop's first `k` iterations read no argument slot at or above `k`. -/
theorem clearArgs_congr (d : SyscallDesc) {a₁ a₂ : Args} (tm : Tagmap) (k : Nat)
    (h : ∀ i : Fin 6, i.val < k → a₁ i = a₂ i) : clearArgs d a₁ tm k = clearArgs d a₂ tm k := by
  induction k with
  | zero => rfl
  | succ k ih =>
    rw [clearArgs, clearArgs, ih fun i hi => h i (Nat.lt_succ_of_lt hi)]
    congr 1
    funext tm
    by_cases hk : k < 6
    · rw [clearArg_of_lt d a₁ tm ⟨k, hk⟩, clearArg_of_lt d a₂ tm ⟨k, hk⟩,
        h ⟨k, hk⟩ (Nat.lt_succ_self k)]
    · simp [clearArg, hk]

/-! ### `sysexit_save`, case by case -/

section Spec

variable (T : SyscallDescTable) (r : Addrint) (aux : Nat) (c : SyscallCtx) (tm : Tagmap)
  {d : SyscallDesc}

/-- A negative number, such as the sentinel `-1`, makes exit a no-op. -/
theorem sysexitSave_of_neg (h : c.nr < 0) : sysexitSave T r aux c tm = .ok (c, tm) := by
  simp [sysexitSave, h]

/-- A non-negative number past the table faults on `syscall_desc[nr]`. -/
theorem sysexitSave_of_lookup_none (h0 : 0 ≤ c.nr) (hd : T.lookup c.nr.toNat = none) :
    sysexitSave T r aux c tm = .error .descOutOfBounds := by
  simp [sysexitSave, Int.not_lt.mpr h0, hd]

variable (h0 : 0 ≤ c.nr) (hd : T.lookup c.nr.toNat = some d)
include h0 hd

/-- A non-negative number inside the table runs the body on its descriptor. -/
theorem sysexitSave_of_lookup : sysexitSave T r aux c tm = sysexitSaveDesc d r aux c tm := by
  simp [sysexitSave, Int.not_lt.mpr h0, hd]

/-- A descriptor that asks for no capture leaves context and tag store alone. -/
theorem sysexitSave_of_noSave (hs : d.saveArgs ||| d.retvalArgs = 0) :
    sysexitSave T r aux c tm = .ok (c, tm) := by
  simp [sysexitSave_of_lookup T r aux c tm h0 hd, sysexitSaveDesc, hs]

/-- A registered post callback runs once, on the context with `ret` and `aux` stored. -/
theorem sysexitSave_of_post (hs : d.saveArgs ||| d.retvalArgs ≠ 0) {f : SyscallCallback}
    (hp : d.post = some f) :
    sysexitSave T r aux c tm = .ok (f { c with ret := r, aux := aux } tm) := by
  simp [sysexitSave_of_lookup T r aux c tm h0 hd, sysexitSaveDesc, hs, hp]

/-- Without a post callback, a failed syscall only stores `ret` and `aux`. -/
theorem sysexitSave_of_failed (hs : d.saveArgs ||| d.retvalArgs ≠ 0) (hp : d.post = none)
    (hr : r.toInt < 0) :
    sysexitSave T r aux c tm = .ok ({ c with ret := r, aux := aux }, tm) := by
  simp [sysexitSave_of_lookup T r aux c tm h0 hd, sysexitSaveDesc, hs, hp, retLtZero, hr]

/-- Without a post callback, a successful syscall runs the write-back loop. -/
theorem sysexitSave_of_default (hs : d.saveArgs ||| d.retvalArgs ≠ 0) (hp : d.post = none)
    (hr : 0 ≤ r.toInt) :
    sysexitSave T r aux c tm =
      (clearArgs d c.arg tm d.nargs).map fun tm => ({ c with ret := r, aux := aux }, tm) := by
  simp [sysexitSave_of_lookup T r aux c tm h0 hd, sysexitSaveDesc, hs, hp, retLtZero,
    Int.not_lt.mpr hr]

/-- Everything exit can do on a known syscall: nothing, the post callback, storing `ret` and
`aux` only, or the write-back loop. -/
theorem sysexitSave_cases :
    sysexitSave T r aux c tm = .ok (c, tm) ∨
    (∃ f, d.post = some f ∧
      sysexitSave T r aux c tm = .ok (f { c with ret := r, aux := aux } tm)) ∨
    sysexitSave T r aux c tm = .ok ({ c with ret := r, aux := aux }, tm) ∨
    sysexitSave T r aux c tm =
      (clearArgs d c.arg tm d.nargs).map fun tm => ({ c with ret := r, aux := aux }, tm) := by
  by_cases hs : d.saveArgs ||| d.retvalArgs = 0
  · exact .inl (sysexitSave_of_noSave T r aux c tm h0 hd hs)
  cases hp : d.post with
  | some f => exact .inr (.inl ⟨f, rfl, sysexitSave_of_post T r aux c tm h0 hd hs hp⟩)
  | none =>
    by_cases hr : r.toInt < 0
    · exact .inr (.inr (.inl (sysexitSave_of_failed T r aux c tm h0 hd hs hp hr)))
    · exact .inr (.inr (.inr
        (sysexitSave_of_default T r aux c tm h0 hd hs hp (Int.not_lt.mp hr))))

end Spec

/-- With tag-blind callbacks, exit acts on any tag store as it acts on the all-tainted one: it
leaves the same context, faults alike, and clears the bytes it clears there. -/
theorem sysexitSave_tagBlind {T : SyscallDescTable} (hT : T.TagBlind) (r : Addrint) (aux : Nat)
    (c : SyscallCtx) (tm : Tagmap) :
    sysexitSave T r aux c tm = (sysexitSave T r aux c fun _ => true).map
      fun x => (x.1, fun a => if !x.2 a then false else tm a) := by
  by_cases hn : c.nr < 0
  · rw [sysexitSave_of_neg T r aux c tm hn, sysexitSave_of_neg T r aux c _ hn]; rfl
  have h0 := Int.not_lt.mp hn
  cases hd : T.lookup c.nr.toNat with
  | none =>
    rw [sysexitSave_of_lookup_none T r aux c tm h0 hd, sysexitSave_of_lookup_none T r aux c _ h0 hd]
    rfl
  | some d =>
    obtain ⟨hlt, rfl⟩ := (T.lookup_eq_some_iff _ _).mp hd
    by_cases hs : (T.desc ⟨_, hlt⟩).saveArgs ||| (T.desc ⟨_, hlt⟩).retvalArgs = 0
    · rw [sysexitSave_of_noSave T r aux c tm h0 hd hs, sysexitSave_of_noSave T r aux c _ h0 hd hs]
      rfl
    cases hp : (T.desc ⟨_, hlt⟩).post with
    | some f =>
      rw [sysexitSave_of_post T r aux c tm h0 hd hs hp, sysexitSave_of_post T r aux c _ h0 hd hs hp,
        (hT _).2 f hp _ tm (fun _ => true), (hT _).2 f hp _ (fun _ => true) (fun _ => true)]
      rfl
    | none =>
      by_cases hr : r.toInt < 0
      · rw [sysexitSave_of_failed T r aux c tm h0 hd hs hp hr,
          sysexitSave_of_failed T r aux c _ h0 hd hs hp hr]
        rfl
      · rw [sysexitSave_of_default T r aux c tm h0 hd hs hp (Int.not_lt.mp hr),
          sysexitSave_of_default T r aux c _ h0 hd hs hp (Int.not_lt.mp hr), clearArgs_eq_map]
        cases clearArgs (T.desc ⟨_, hlt⟩) c.arg (fun _ => true) (T.desc ⟨_, hlt⟩).nargs <;>
          rfl

/-- With callbacks that set no tag, exit sets none. -/
theorem sysexitSave_le {T : SyscallDescTable} (hT : T.SetsNoTag) {r : Addrint} {aux : Nat}
    {c c' : SyscallCtx} {tm tm' : Tagmap} (h : sysexitSave T r aux c tm = .ok (c', tm')) :
    tm' ≤ tm := by
  by_cases hn : c.nr < 0
  · rw [sysexitSave_of_neg T r aux c tm hn] at h; cases h; exact le_rfl
  have h0 := Int.not_lt.mp hn
  cases hd : T.lookup c.nr.toNat with
  | none => rw [sysexitSave_of_lookup_none T r aux c tm h0 hd] at h; cases h
  | some d =>
    obtain ⟨_, rfl⟩ := (T.lookup_eq_some_iff _ _).mp hd
    rcases sysexitSave_cases T r aux c tm h0 hd with hx | ⟨f, hp, hx⟩ | hx | hx <;>
      rw [hx] at h
    · cases h; exact le_rfl
    · have e : (f _ tm).2 = tm' := congrArg Prod.snd (Except.ok.inj h)
      exact e ▸ (hT _).2 f hp _ tm
    · cases h; exact le_rfl
    · cases h₁ : clearArgs _ c.arg tm _ with
      | error => rw [h₁] at h; cases h
      | ok tm₁ => rw [h₁] at h; cases h; exact clearArgs_le h₁

/-- `sysexit_save` on a known syscall whose descriptor `d` declares at most six arguments,
for every return word `r`: without capture nothing changes; with capture `ret` is stored and
then either the post callback runs once, or a failed syscall changes no tag, or a successful
one clears exactly the buffers of its write-back table. -/
theorem sysexitSave_known (T : SyscallDescTable) (c : SyscallCtx) {d : SyscallDesc}
    (h0 : 0 ≤ c.nr) (hd : T.lookup c.nr.toNat = some d) (hn : d.nargs ≤ 6)
    (r : Addrint) (aux : Nat) (tm : Tagmap) :
    (d.saveArgs ||| d.retvalArgs = 0 → sysexitSave T r aux c tm = .ok (c, tm)) ∧
    (d.saveArgs ||| d.retvalArgs ≠ 0 →
      (∀ f, d.post = some f →
        sysexitSave T r aux c tm = .ok (f { c with ret := r, aux := aux } tm)) ∧
      (d.post = none → r.toInt < 0 →
        sysexitSave T r aux c tm = .ok ({ c with ret := r, aux := aux }, tm)) ∧
      (d.post = none → 0 ≤ r.toInt → ∃ tm',
        sysexitSave T r aux c tm = .ok ({ c with ret := r, aux := aux }, tm') ∧
        ClearsExactly d c.arg d.nargs tm tm')) := by
  refine ⟨sysexitSave_of_noSave T r aux c tm h0 hd, fun hs =>
    ⟨fun f hp => sysexitSave_of_post T r aux c tm h0 hd hs hp,
     sysexitSave_of_failed T r aux c tm h0 hd hs, fun hp hr => ?_⟩⟩
  obtain ⟨tm', hl, hc⟩ := clearArgs_spec d c.arg tm hn
  exact ⟨tm', by rw [sysexitSave_of_default T r aux c tm h0 hd hs hp hr, hl]; rfl, hc⟩

/-- The spec's scenario: three arguments, a ten-byte buffer at argument 1, no post
callback, return value 10. -/
theorem sysexitSave_known_scenario :
    let d : SyscallDesc := ⟨3, 0, 1, fun i => if i.val = 1 then 10 else 0, none, none⟩
    let T : SyscallDescTable := ⟨1, by decide, by decide, fun _ => d⟩
    let c : SyscallCtx := ⟨0, fun _ => 4096, 0, 0⟩
    let tm : Tagmap := fun _ => true
    (0 ≤ c.nr ∧ T.lookup c.nr.toNat = some d ∧ d.nargs ≤ 6) ∧
    (d.saveArgs ||| d.retvalArgs = 0 → sysexitSave T 10 0 c tm = .ok (c, tm)) ∧
    (d.saveArgs ||| d.retvalArgs ≠ 0 →
      (∀ f, d.post = some f →
        sysexitSave T 10 0 c tm = .ok (f { c with ret := 10, aux := 0 } tm)) ∧
      (d.post = none → (10 : Addrint).toInt < 0 →
        sysexitSave T 10 0 c tm = .ok ({ c with ret := 10, aux := 0 }, tm)) ∧
      (d.post = none → 0 ≤ (10 : Addrint).toInt → ∃ tm',
        sysexitSave T 10 0 c tm = .ok ({ c with ret := 10, aux := 0 }, tm') ∧
        ClearsExactly d c.arg d.nargs tm tm')) :=
  by
  intro d T c tm
  exact ⟨⟨Int.le_refl 0, rfl, by decide⟩,
    sysexitSave_known T c (d := d) (Int.le_refl 0) rfl (by decide) 10 0 tm⟩

end Libdft
