import Libdft.Thread.Isolation

/-!
# Notifications of different threads commute

Spec §5: a thread's context is its own and no lock guards it; the tag store is shared. With
syscall callbacks blind to the tag store, each notification of
`src/libdft/src/libdft_api.c` (`thread_alloc`, `thread_free`, `sysenter_save`,
`sysexit_save`) writes fixed values: its own thread's register, one heap cell that its thread
owns or that `calloc` has just returned, and a fixed set of cleared tag bytes. `Effect` is
that write set, `effectOf` reads it off the acting thread's register and block, and
`step_eq_effect` says that every step is its effect. Effects of different threads commute, so
two notifications of different threads, each allowed where it comes, can be swapped in a
schedule without changing where it ends.
-/

namespace Libdft

/-! ### Writes that commute -/

/-- `f` with the value at `t` replaced, if there is a new one. -/
def updateOpt {α : Type} (f : Tid → α) (t : Tid) : Option α → Tid → α
  | some v => Function.update f t v
  | none => f

theorem updateOpt_comm {α : Type} (f : Tid → α) {t u : Tid} (h : t ≠ u) (v v' : Option α) :
    updateOpt (updateOpt f u v') t v = updateOpt (updateOpt f t v) u v' := by
  cases v <;> cases v' <;> simp only [updateOpt]
  exact (Function.update_comm h _ _ _).symm

theorem updateOpt_apply_ne {α : Type} (f : Tid → α) {t u : Tid} (h : u ≠ t) (v : Option α) :
    updateOpt f t v u = f u := by
  cases v
  · rfl
  · exact Function.update_noteq h _ _

/-- The heap with one cell written, if there is a write. -/
def writeCell (heap : Nat → Option ThreadCtx) :
    Option (Nat × Option ThreadCtx) → Nat → Option ThreadCtx
  | some (a, v) => Function.update heap a v
  | none => heap

/-- Two cell writes that name different cells, or the same cell with the same value. -/
def CellsCompat (x y : Option (Nat × Option ThreadCtx)) : Prop :=
  ∀ a v b v', x = some (a, v) → y = some (b, v') → a = b → v = v'

theorem writeCell_comm (heap : Nat → Option ThreadCtx) {x y : Option (Nat × Option ThreadCtx)}
    (h : CellsCompat x y) : writeCell (writeCell heap y) x = writeCell (writeCell heap x) y := by
  rcases x with _ | ⟨a, v⟩ <;> rcases y with _ | ⟨b, v'⟩ <;> simp only [writeCell]
  by_cases hab : a = b
  · subst hab
    rw [h a v a v' rfl rfl rfl, Function.update_idem]
  · exact Function.update_comm (Ne.symm hab) _ _ _

theorem writeCell_apply_ne (heap : Nat → Option ThreadCtx) {x : Option (Nat × Option ThreadCtx)}
    {a : Nat} (h : ∀ b v, x = some (b, v) → b ≠ a) : writeCell heap x a = heap a := by
  rcases x with _ | ⟨b, v⟩
  · rfl
  · exact Function.update_noteq (h b v rfl).symm _ _

/-- The tag store with the bytes `clears` names cleared. -/
def clearTags (tm : Tagmap) (clears : Nat → Bool) : Tagmap :=
  fun a => if clears a then false else tm a

@[simp] theorem clearTags_none (tm : Tagmap) : clearTags tm (fun _ => false) = tm := rfl

theorem clearTags_comm (tm : Tagmap) (c₁ c₂ : Nat → Bool) :
    clearTags (clearTags tm c₂) c₁ = clearTags (clearTags tm c₁) c₂ := by
  funext a
  simp only [clearTags]
  cases c₁ a <;> cases c₂ a <;> rfl

namespace World

variable {T : SyscallDescTable}

/-! ### The effect of a notification -/

/-- What one notification writes, as fixed values: its thread's register, one heap cell, the
tag bytes it clears, whether `libdft_die` runs, and its thread's ghost records. -/
structure Effect where
  tid : Tid
  reg : Option Nat
  cell : Option (Nat × Option ThreadCtx)
  clears : Nat → Bool
  die : Bool
  phase : Phase
  alloc : Option Nat
  entered : Option (Option SyscallCtx)

/-- The world with an effect's writes done. -/
def Effect.apply (x : Effect) (w : World) : World :=
  ⟨⟨updateOpt w.m.threadCtxPtr x.tid x.reg, writeCell w.m.heap x.cell,
      clearTags w.m.tagmap x.clears, x.die || w.m.detached⟩,
    Function.update w.phase x.tid x.phase, updateOpt w.alloc x.tid x.alloc,
    updateOpt w.entered x.tid x.entered⟩

/-- Effects of different threads whose cell writes are compatible commute. -/
theorem Effect.apply_comm {x y : Effect} (ht : x.tid ≠ y.tid) (hc : CellsCompat x.cell y.cell)
    (w : World) : x.apply (y.apply w) = y.apply (x.apply w) := by
  simp only [Effect.apply]
  rw [updateOpt_comm _ ht, writeCell_comm _ hc, clearTags_comm, Bool.or_left_comm,
    Function.update_comm ht.symm, updateOpt_comm _ ht, updateOpt_comm _ ht]

/-- The effect of `e` in `w`, read off `e`'s thread's register and the block it names. A
syscall body runs on the all-tainted tag store, and the bytes it clears there are the bytes it
clears. -/
def effectOf (T : SyscallDescTable) (w : World) : Event → Except Fault Effect
  | .threadStart t blk => .ok
      ⟨t, some (blk.getD 0), blk.map (·, some ThreadCtx.zero), fun _ => false, blk.isNone,
        .running, some (blk.getD 0), none⟩
  | .threadFini t =>
    if w.m.threadCtxPtr t = 0 then .ok ⟨t, none, none, fun _ => false, false, .idle, none, none⟩
    else match w.m.heap (w.m.threadCtxPtr t) with
      | some _ =>
        .ok ⟨t, none, some (w.m.threadCtxPtr t, none), fun _ => false, false, .idle, none, none⟩
      | none => .error .invalidFree
  | .syscallEntry t nr get aux => (w.m.deref (w.m.threadCtxPtr t)).map fun tc =>
      let c := (sysenterSave T nr get aux tc.syscallCtx fun _ => true).1
      ⟨t, none, some (w.m.threadCtxPtr t, some ⟨c⟩), fun _ => false, false, .inSyscall, none,
        some (some c)⟩
  | .syscallExit t ret aux => (w.m.deref (w.m.threadCtxPtr t)).bind fun tc =>
      (sysexitSave T ret aux tc.syscallCtx fun _ => true).map fun x =>
        ⟨t, none, some (w.m.threadCtxPtr t, some ⟨x.1⟩), fun a => !x.2 a, false, .running,
          none, none⟩

/-- With tag-blind callbacks, every notification, faults included, is its effect. -/
theorem step_eq_effect (hT : T.TagBlind) (w : World) (e : Event) :
    w.step T e = (effectOf T w e).map (·.apply w) := by
  cases e with
  | threadStart t blk => cases blk <;> rfl
  | threadFini t =>
    simp only [step, effectOf, Machine.threadFree, Machine.free]
    by_cases h0 : w.m.threadCtxPtr t = 0
    · simp only [h0, if_true]; rfl
    · simp only [h0, if_false]
      cases w.m.heap (w.m.threadCtxPtr t) <;> rfl
  | syscallEntry t nr get aux =>
    simp only [step, effectOf, Machine.sysenterSave_eq]
    cases w.m.deref (w.m.threadCtxPtr t) with
    | error => rfl
    | ok tc =>
      simp only [Except.map]
      rw [sysenterSave_tagBlind T nr get aux tc.syscallCtx w.m.tagmap hT fun _ => true]
      simp [Effect.apply, updateOpt, writeCell, clearTags, Machine.writeBack,
        Machine.syscallCtxOf]
  | syscallExit t ret aux =>
    simp only [step, effectOf, Machine.sysexitSave_eq]
    cases w.m.deref (w.m.threadCtxPtr t) with
    | error => rfl
    | ok tc =>
      simp only [Except.bind]
      rw [sysexitSave_tagBlind hT ret aux tc.syscallCtx w.m.tagmap]
      cases sysexitSave T ret aux tc.syscallCtx fun _ => true <;> rfl

/-- A write through a pointer that dereferences names that pointer's non-NULL live block. -/
private theorem cell_of_deref {w : World} {p : Nat} {tc : ThreadCtx}
    (hd : w.m.deref p = .ok tc) {v₀ : Option ThreadCtx} :
    ∀ a v, some (p, v₀) = some (a, v) → a = p ∧ a ≠ 0 ∧ w.m.heap a ≠ none := by
  intro a v hc
  obtain ⟨rfl, -⟩ := Prod.mk.inj (Option.some.inj hc)
  obtain ⟨h0, hh⟩ := (Machine.deref_eq_ok_iff _ _ _).mp hd
  exact ⟨rfl, h0, by rw [hh]; nofun⟩

/-- What an effect can be. It belongs to the notification's thread; a start writes the block
`calloc` returned, zero-filled, and any other notification writes at most its thread's own
non-NULL live block. -/
theorem effectOf_ok {w : World} {e : Event} {x : Effect} (h : effectOf T w e = .ok x) :
    x.tid = e.tid ∧
      ((∃ t blk, e = .threadStart t blk ∧ x.cell = blk.map (·, some ThreadCtx.zero)) ∨
        ((∀ t blk, e ≠ .threadStart t blk) ∧ ∀ a v, x.cell = some (a, v) →
          a = w.m.threadCtxPtr e.tid ∧ a ≠ 0 ∧ w.m.heap a ≠ none)) := by
  cases e with
  | threadStart t blk => cases h; exact ⟨rfl, .inl ⟨t, blk, rfl, rfl⟩⟩
  | threadFini t =>
    simp only [effectOf] at h
    split at h
    · cases h; exact ⟨rfl, .inr ⟨nofun, nofun⟩⟩
    · next h0 =>
      cases hh : w.m.heap (w.m.threadCtxPtr t) <;> rw [hh] at h <;> cases h
      have hd := (Machine.deref_eq_ok_iff _ _ _).mpr ⟨h0, hh⟩
      exact ⟨rfl, .inr ⟨nofun, cell_of_deref hd⟩⟩
  | syscallEntry t nr get aux =>
    simp only [effectOf] at h
    cases hd : w.m.deref (w.m.threadCtxPtr t) <;> rw [hd] at h <;> cases h
    exact ⟨rfl, .inr ⟨nofun, cell_of_deref hd⟩⟩
  | syscallExit t ret aux =>
    simp only [effectOf] at h
    cases hd : w.m.deref (w.m.threadCtxPtr t) <;> rw [hd] at h
    · cases h
    · simp only [Except.bind] at h
      cases hx : sysexitSave T ret aux _ fun _ => true <;> rw [hx] at h <;> cases h
      exact ⟨rfl, .inr ⟨nofun, cell_of_deref hd⟩⟩

/-- The effect depends only on the thread's register and the block it names. -/
theorem effectOf_congr {w w' : World} {e : Event}
    (hp : w'.m.threadCtxPtr e.tid = w.m.threadCtxPtr e.tid)
    (hh : w'.m.heap (w.m.threadCtxPtr e.tid) = w.m.heap (w.m.threadCtxPtr e.tid)) :
    effectOf T w' e = effectOf T w e := by
  cases e <;> simp only [Event.tid] at hp hh <;> simp only [effectOf, Machine.deref, hp, hh]

/-! ### Effects in a reachable world -/

/-- An allowed notification other than a start concerns a live thread. -/
theorem Allowed.live {w : World} {e : Event} (ha : w.Allowed e)
    (hs : ∀ t blk, e ≠ .threadStart t blk) : w.phase e.tid ≠ .idle := by
  cases e with
  | threadStart t blk => exact absurd rfl (hs t blk)
  | threadFini t => show w.phase t ≠ _; rw [show w.phase t = .running from ha]; nofun
  | syscallEntry t => show w.phase t ≠ _; rw [show w.phase t = .running from ha]; nofun
  | syscallExit t => show w.phase t ≠ _; rw [show w.phase t = .inSyscall from ha]; nofun

/-- The cell an allowed notification writes is not NULL, and it is either a block `calloc` has
just returned, zero-filled, or the live block of the notification's own live thread. -/
theorem Inv.effect_cell {w : World} (hw : Inv w) {e : Event} (ha : w.Allowed e) {x : Effect}
    (h : effectOf T w e = .ok x) {a : Nat} {v : Option ThreadCtx} (hc : x.cell = some (a, v)) :
    a ≠ 0 ∧ ((w.m.heap a = none ∧ v = some ThreadCtx.zero) ∨
      (w.phase e.tid ≠ .idle ∧ w.alloc e.tid = a ∧ w.m.heap a ≠ none)) := by
  obtain ⟨-, ⟨t, blk, rfl, hx⟩ | ⟨hns, hown⟩⟩ := effectOf_ok h
  · rw [hx] at hc
    cases blk with
    | none => cases hc
    | some b =>
      obtain ⟨rfl, rfl⟩ := Prod.mk.inj (Option.some.inj hc)
      exact ⟨(ha.2 _ rfl).1, .inl ⟨(ha.2 _ rfl).2, rfl⟩⟩
  · obtain ⟨rfl, h0, hh⟩ := hown a v hc
    have ht := ha.live hns
    exact ⟨h0, .inr ⟨ht, (hw.ptr_eq _ ht).symm, hh⟩⟩

/-- Allowed notifications of different threads write compatible cells. -/
theorem Inv.cellsCompat {w : World} (hw : Inv w) {e₁ e₂ : Event} (ha₁ : w.Allowed e₁)
    (ha₂ : w.Allowed e₂) (hne : e₁.tid ≠ e₂.tid) {x₁ x₂ : Effect}
    (h₁ : effectOf T w e₁ = .ok x₁) (h₂ : effectOf T w e₂ = .ok x₂) :
    CellsCompat x₁.cell x₂.cell := by
  rintro a v b v' hc₁ hc₂ rfl
  obtain ⟨h0, ⟨hf₁, rfl⟩ | ⟨hl₁, ho₁, hn₁⟩⟩ := hw.effect_cell ha₁ h₁ hc₁ <;>
    obtain ⟨-, ⟨hf₂, rfl⟩ | ⟨hl₂, ho₂, hn₂⟩⟩ := hw.effect_cell ha₂ h₂ hc₂
  · rfl
  · exact absurd hf₁ hn₂
  · exact absurd hf₂ hn₁
  · have h0₁ : w.alloc e₁.tid ≠ 0 := by rw [ho₁]; exact h0
    exact absurd (hw.alloc_inj _ _ hl₁ hl₂ h0₁ (ho₁.trans ho₂.symm)) hne

/-- An allowed notification of another thread leaves the effect of an allowed notification. -/
theorem Inv.effectOf_apply {w : World} (hw : Inv w) {e e' : Event} (ha : w.Allowed e)
    (ha' : w.Allowed e') (hne : e.tid ≠ e'.tid) {y : Effect} (hy : effectOf T w e' = .ok y) :
    effectOf T (y.apply w) e = effectOf T w e := by
  by_cases hs : ∃ t blk, e = .threadStart t blk
  · obtain ⟨t, blk, rfl⟩ := hs; rfl
  have ht := ha.live fun t blk he => hs ⟨t, blk, he⟩
  have hyt : e.tid ≠ y.tid := by rw [(effectOf_ok hy).1]; exact hne
  refine effectOf_congr (updateOpt_apply_ne _ hyt _) (writeCell_apply_ne _ fun b v hc hb => ?_)
  rw [hw.ptr_eq _ ht] at hb
  obtain ⟨h0, ⟨hf, -⟩ | ⟨hl, ho, -⟩⟩ := hw.effect_cell ha' hy hc
  · exact hw.alloc_live _ ht (hb ▸ h0) (hb ▸ hf)
  · exact hne (hw.alloc_inj _ _ hl ht (by rw [ho]; exact h0) (ho.trans hb)).symm

/-! ### Swapping two notifications -/

/-- Two allowed notifications of different threads, run one after the other from a reachable
world, run in the other order too and reach the same world. -/
theorem step_swap (hT : T.TagBlind) {w w₁ w₁₂ : World} (hw : Reachable T w)
    {e₁ e₂ : Event} (hne : e₁.tid ≠ e₂.tid) (ha₁ : w.Allowed e₁) (ha₂ : w.Allowed e₂)
    (h₁ : w.step T e₁ = .ok w₁) (h₁₂ : w₁.step T e₂ = .ok w₁₂) :
    ∃ w₂, w.step T e₂ = .ok w₂ ∧ w₂.step T e₁ = .ok w₁₂ := by
  have hi := inv_reachable hw
  rw [step_eq_effect hT] at h₁
  cases hx₁ : effectOf T w e₁ with
  | error => rw [hx₁] at h₁; cases h₁
  | ok x₁ =>
    rw [hx₁] at h₁
    cases h₁
    rw [step_eq_effect hT, hi.effectOf_apply ha₂ ha₁ (Ne.symm hne) hx₁] at h₁₂
    cases hx₂ : effectOf T w e₂ with
    | error => rw [hx₂] at h₁₂; cases h₁₂
    | ok x₂ =>
      rw [hx₂] at h₁₂
      cases h₁₂
      refine ⟨x₂.apply w, by rw [step_eq_effect hT, hx₂]; rfl, ?_⟩
      rw [step_eq_effect hT, hi.effectOf_apply ha₁ ha₂ hne hx₂, hx₁]
      have ht : x₁.tid ≠ x₂.tid := by
        rw [(effectOf_ok hx₁).1, (effectOf_ok hx₂).1]; exact hne
      exact congrArg Except.ok (Effect.apply_comm ht (hi.cellsCompat ha₁ ha₂ hne hx₁ hx₂) w)

/-- Two schedules Pin may deliver that differ only in the order of two adjacent notifications
of different threads end in the same world: if one runs without a fault, so does the other. -/
theorem run_swap (hT : T.TagBlind) {w w' : World} (hw : Reachable T w) {e₁ e₂ : Event}
    (hne : e₁.tid ≠ e₂.tid) (es es' : List Event)
    (hs₁ : Schedule T w (es ++ e₁ :: e₂ :: es')) (hs₂ : Schedule T w (es ++ e₂ :: e₁ :: es'))
    (h : w.run T (es ++ e₁ :: e₂ :: es') = .ok w') :
    w.run T (es ++ e₂ :: e₁ :: es') = .ok w' := by
  induction es generalizing w with
  | nil =>
    obtain ⟨ha₁, -⟩ := hs₁
    obtain ⟨ha₂, -⟩ := hs₂
    obtain ⟨w₁, h₁, h⟩ := run_cons_eq_ok.mp h
    obtain ⟨w₁₂, h₁₂, h⟩ := run_cons_eq_ok.mp h
    obtain ⟨w₂, h₂, h₂₁⟩ := step_swap hT hw hne ha₁ ha₂ h₁ h₁₂
    exact run_cons_eq_ok.mpr ⟨w₂, h₂, run_cons_eq_ok.mpr ⟨w₁₂, h₂₁, h⟩⟩
  | cons e es ih =>
    obtain ⟨ha, hn₁⟩ := hs₁
    obtain ⟨-, hn₂⟩ := hs₂
    obtain ⟨w₁, h₁, h⟩ := run_cons_eq_ok.mp h
    exact run_cons_eq_ok.mpr ⟨w₁, h₁, ih (.step hw ha h₁) (hn₁ w₁ h₁) (hn₂ w₁ h₁) h⟩

/-- Thread 0 enters a syscall while thread 1 starts; both orders end in one world. -/
theorem run_swap_enter_start :
    let T : SyscallDescTable := ⟨1, by decide, by decide,
      fun _ => ⟨3, 0, 1, fun i => if i.val = 1 then 10 else 0, none, none⟩⟩
    let w := World.init (fun _ => 0) (fun _ => true)
    let e₁ : Event := .syscallEntry 0 0 (fun i => if i = 1 then 4096 else 10) 0
    let e₂ : Event := .threadStart 1 (some 16)
    let es : List Event := [.threadStart 0 (some 8)]
    let es' : List Event := [.syscallExit 0 10 0]
    T.TagBlind ∧ Reachable T w ∧ e₁.tid ≠ e₂.tid ∧
      Schedule T w (es ++ e₁ :: e₂ :: es') ∧ Schedule T w (es ++ e₂ :: e₁ :: es') ∧
      ∃ w', w.run T (es ++ e₁ :: e₂ :: es') = .ok w' ∧
        w.run T (es ++ e₂ :: e₁ :: es') = .ok w' := by
  intro T w e₁ e₂ es es'
  have hT : T.TagBlind := fun _ => ⟨fun _ h => (nomatch h), fun _ h => (nomatch h)⟩
  have hs₁ : Schedule T w (es ++ e₁ :: e₂ :: es') :=
    ⟨⟨rfl, fun a ha => by cases ha; exact ⟨by decide, rfl⟩⟩, fun w₁ h₁ => by
      cases h₁
      refine ⟨rfl, fun w₂ h₂ => ?_⟩
      cases h₂
      refine ⟨⟨rfl, fun a ha => by cases ha; exact ⟨by decide, rfl⟩⟩,
        fun w₃ h₃ => ?_⟩
      cases h₃
      exact ⟨rfl, fun _ _ => trivial⟩⟩
  have hs₂ : Schedule T w (es ++ e₂ :: e₁ :: es') :=
    ⟨⟨rfl, fun a ha => by cases ha; exact ⟨by decide, rfl⟩⟩, fun w₁ h₁ => by
      cases h₁
      refine ⟨⟨rfl, fun a ha => by cases ha; exact ⟨by decide, rfl⟩⟩,
        fun w₂ h₂ => ?_⟩
      cases h₂
      refine ⟨rfl, fun w₃ h₃ => ?_⟩
      cases h₃
      exact ⟨rfl, fun _ _ => trivial⟩⟩
  have hR : (w.run T (es ++ e₁ :: e₂ :: es')).toOption.isSome = true := by decide
  cases h : w.run T (es ++ e₁ :: e₂ :: es') with
  | error => rw [h] at hR; cases hR
  | ok w' =>
    exact ⟨hT, .init _ _, by decide, hs₁, hs₂, w', rfl,
      run_swap hT (.init _ _) (by decide) es es' hs₁ hs₂ h⟩
end World

end Libdft
