import Mathlib.Logic.Function.Basic

/-!
# The instruction descriptor table

`src/libdft/src/libdft_api.c:483` and `521–636`. `libdft_init` zero-fills `ins_desc`, one
entry per opcode class, and the five registration calls are its only writers. Each call checks
its arguments, returns `1` on a bad one, and otherwise writes one field of the entry its
descriptor points to and returns `0`. `ins_desc_t` and the `INSDFL_*` values are declared in
`libdft_api.h`, which is not under `src/`; they follow the spec's dispatch-table entry.
-/

namespace Libdft

/-- Modelled from the spec: `INSDFL_ENABLE`, the zero that `memset` leaves in `dflact`. -/
def insdflEnable : Nat := 0

/-- Modelled from the spec: `INSDFL_DISABLE`. -/
def insdflDisable : Nat := 1

/-- Modelled from the spec: `ins_desc_t`. A hook is a function pointer, `none` for NULL;
`dflact` is the `size_t` default action. -/
structure InsDesc (H : Type) where
  pre : Option H
  post : Option H
  dflact : Nat
  deriving DecidableEq, Repr

/-- `ins_desc`, indexed by opcode class. -/
abbrev InsDescTable (Op H : Type) := Op → InsDesc H

/-- `memset(ins_desc, 0, sizeof(ins_desc))` in `libdft_init` (line 483). -/
def insDescReset {Op H : Type} : InsDescTable Op H := fun _ => ⟨none, none, 0⟩

variable {Op H : Type} [DecidableEq Op]

/-! ### The registration calls -/

/-- The shape the registration calls share: `1` on a NULL descriptor or a failed check `bad`,
otherwise `desc->field = v` through `f` and `0`. -/
def insDescWrite (tbl : InsDescTable Op H) (desc : Option Op) (bad : Bool)
    (f : InsDesc H → InsDesc H) : Nat × InsDescTable Op H :=
  match desc with
  | some i => if bad then (1, tbl) else (0, Function.update tbl i (f (tbl i)))
  | none => (1, tbl)

/-- `ins_set_pre` (lines 521–534). -/
def insSetPre (tbl : InsDescTable Op H) (desc : Option Op) (pre : Option H) :
    Nat × InsDescTable Op H :=
  insDescWrite tbl desc pre.isNone fun d => { d with pre := pre }

/-- `ins_set_post` (lines 544–557). -/
def insSetPost (tbl : InsDescTable Op H) (desc : Option Op) (post : Option H) :
    Nat × InsDescTable Op H :=
  insDescWrite tbl desc post.isNone fun d => { d with post := post }

/-- `ins_clr_pre` (lines 566–579). -/
def insClrPre (tbl : InsDescTable Op H) (desc : Option Op) : Nat × InsDescTable Op H :=
  insDescWrite tbl desc false fun d => { d with pre := none }

/-- `ins_clr_post` (lines 588–601). -/
def insClrPost (tbl : InsDescTable Op H) (desc : Option Op) : Nat × InsDescTable Op H :=
  insDescWrite tbl desc false fun d => { d with post := none }

/-- `ins_set_dflact` (lines 610–636): after the NULL check, a `switch` that lets only the two
actions through. -/
def insSetDflact (tbl : InsDescTable Op H) (desc : Option Op) (action : Nat) :
    Nat × InsDescTable Op H :=
  match desc with
  | none => (1, tbl)
  | some i =>
    if action = insdflEnable ∨ action = insdflDisable then
      (0, Function.update tbl i { tbl i with dflact := action })
    else (1, tbl)

/-- The `switch` of `ins_set_dflact` is the shared shape with a check on the value instead of
a NULL test. -/
theorem insSetDflact_eq_write (tbl : InsDescTable Op H) (desc : Option Op) (action : Nat) :
    insSetDflact tbl desc action =
      insDescWrite tbl desc (!(action == insdflEnable || action == insdflDisable))
        fun d => { d with dflact := action } := by
  cases desc with
  | none => rfl
  | some i =>
    simp only [insSetDflact, insDescWrite]
    by_cases h : action = insdflEnable ∨ action = insdflDisable
    · rcases h with h | h <;> simp [h, insdflEnable, insdflDisable]
    · simp [h, (not_or.mp h).1, (not_or.mp h).2]

/-! ### Histories of calls -/

/-- A registration call with its arguments; a descriptor is an entry of `ins_desc` or NULL. -/
inductive InsCall (Op H : Type) where
  | setPre (desc : Option Op) (pre : Option H)
  | setPost (desc : Option Op) (post : Option H)
  | clrPre (desc : Option Op)
  | clrPost (desc : Option Op)
  | setDflact (desc : Option Op) (action : Nat)
  deriving DecidableEq, Repr

namespace InsCall

/-- The return value and the table after the call. -/
def run (tbl : InsDescTable Op H) : InsCall Op H → Nat × InsDescTable Op H
  | setPre desc pre => insSetPre tbl desc pre
  | setPost desc post => insSetPost tbl desc post
  | clrPre desc => insClrPre tbl desc
  | clrPost desc => insClrPost tbl desc
  | setDflact desc action => insSetDflact tbl desc action

/-- The descriptor the call names. -/
def desc : InsCall Op H → Option Op
  | setPre d _ | setPost d _ | clrPre d | clrPost d | setDflact d _ => d

/-- The spec's failures: a NULL descriptor, a NULL callback to a set call, or an action
that is neither `INSDFL_ENABLE` nor `INSDFL_DISABLE`. -/
def fails : InsCall Op H → Bool
  | setPre d f | setPost d f => d.isNone || f.isNone
  | clrPre d | clrPost d => d.isNone
  | setDflact d a => d.isNone || !(a == insdflEnable || a == insdflDisable)

/-- The one field a successful call writes. -/
def write : InsCall Op H → InsDesc H → InsDesc H
  | setPre _ f => fun d => { d with pre := f }
  | setPost _ f => fun d => { d with post := f }
  | clrPre _ => fun d => { d with pre := none }
  | clrPost _ => fun d => { d with post := none }
  | setDflact _ a => fun d => { d with dflact := a }

/-- Every registration call is the shared shape on its descriptor, with the spec's failure
test and its own one-field write. -/
theorem run_eq (tbl : InsDescTable Op H) (c : InsCall Op H) :
    c.run tbl = insDescWrite tbl c.desc c.fails c.write := by
  cases c with
  | setDflact d a => rw [run, insSetDflact_eq_write]; cases d <;> rfl
  | setPre d _ | setPost d _ | clrPre d | clrPost d => cases d <;> rfl

/-- A call returns `1` exactly when it fails. -/
theorem run_fst_eq_one_iff (tbl : InsDescTable Op H) (c : InsCall Op H) :
    (c.run tbl).1 = 1 ↔ c.fails := by
  rw [run_eq]
  cases hd : c.desc with
  | none => cases c <;> simp_all [desc, fails, insDescWrite]
  | some i => cases c.fails <;> simp [insDescWrite]

/-- A failed call leaves the whole table. -/
theorem run_of_fails {c : InsCall Op H} (h : c.fails) (tbl : InsDescTable Op H) :
    c.run tbl = (1, tbl) := by
  rw [run_eq, h]
  cases c.desc <;> rfl

/-- A call that does not fail names an entry, returns `0`, and writes only that entry. -/
theorem run_of_not_fails {c : InsCall Op H} (h : c.fails = false) (tbl : InsDescTable Op H) :
    ∃ i, c.desc = some i ∧ c.run tbl = (0, Function.update tbl i (c.write (tbl i))) := by
  rw [run_eq, h]
  cases hd : c.desc with
  | none => cases c <;> simp_all [desc, fails]
  | some i => exact ⟨i, rfl, rfl⟩

end InsCall

/-- The table after a sequence of calls, each on the table the previous one left. -/
def insDescRun (tbl : InsDescTable Op H) : List (InsCall Op H) → InsDescTable Op H
  | [] => tbl
  | c :: cs => insDescRun (c.run tbl).2 cs

/-! ### The table after a history -/

namespace InsCall

/-- What a successful call writes to `pre`, if it writes that field. -/
def preValue : InsCall Op H → Option (Option H)
  | setPre _ f => some f
  | clrPre _ => some none
  | _ => none

/-- What a successful call writes to `post`, if it writes that field. -/
def postValue : InsCall Op H → Option (Option H)
  | setPost _ f => some f
  | clrPost _ => some none
  | _ => none

/-- What a successful call writes to `dflact`, if it writes that field. -/
def dflactValue : InsCall Op H → Option Nat
  | setDflact _ a => some a
  | _ => none

omit [DecidableEq Op] in
/-- A call's write, field by field. -/
theorem write_eq (c : InsCall Op H) (d : InsDesc H) :
    c.write d =
      ⟨c.preValue.getD d.pre, c.postValue.getD d.post, c.dflactValue.getD d.dflact⟩ := by
  cases c <;> rfl

/-- Entry `k` after a call: written if the call succeeds on `k`, kept otherwise. -/
theorem run_apply (tbl : InsDescTable Op H) (c : InsCall Op H) (k : Op) :
    (c.run tbl).2 k = if c.desc = some k ∧ c.fails = false then c.write (tbl k) else tbl k := by
  cases hf : c.fails
  · obtain ⟨i, hi, hr⟩ := c.run_of_not_fails hf tbl
    rw [hr, hi]
    by_cases hk : k = i
    · subst hk; simp
    · simp [Function.update_noteq hk, Ne.symm hk]
  · rw [c.run_of_fails hf]; simp

end InsCall

/-- The value the last call of `cs` that succeeds on entry `k` and writes the field `val`
reads wrote there, if any. -/
def lastWrite {α : Type} (val : InsCall Op H → Option α) (k : Op) (cs : List (InsCall Op H)) :
    Option α :=
  ((cs.filter fun c => decide (c.desc = some k) && !c.fails).filterMap val).getLast?

private theorem getD_or {α : Type} (x y : Option α) (d : α) :
    (x.or y).getD d = x.getD (y.getD d) := by
  cases x <;> rfl

/-- The first call of a history counts only when no later call writes the field. -/
theorem lastWrite_cons {α : Type} (val : InsCall Op H → Option α) (k : Op) (c : InsCall Op H)
    (cs : List (InsCall Op H)) :
    lastWrite val k (c :: cs) = (lastWrite val k cs).or
      (if c.desc = some k ∧ c.fails = false then val c else none) := by
  rw [lastWrite, ← List.singleton_append, List.filter_append, List.filterMap_append,
    List.getLast?_append, ← lastWrite]
  congr 1
  by_cases h : c.desc = some k ∧ c.fails = false
  · rw [if_pos h, List.filter_cons, List.filter_nil, if_pos (by simp [h.1, h.2])]
    rw [List.filterMap_cons]
    cases val c <;> rfl
  · rw [if_neg h, List.filter_cons, List.filter_nil, if_neg (by simpa using h)]
    rfl

/-- After any history of calls, each field of each entry holds what the last call that
succeeded on that entry and writes that field wrote, or, with no such call, what it held. -/
theorem insDescRun_apply (tbl : InsDescTable Op H) (cs : List (InsCall Op H)) (k : Op) :
    insDescRun tbl cs k =
      ⟨(lastWrite InsCall.preValue k cs).getD (tbl k).pre,
       (lastWrite InsCall.postValue k cs).getD (tbl k).post,
       (lastWrite InsCall.dflactValue k cs).getD (tbl k).dflact⟩ := by
  induction cs generalizing tbl with
  | nil => rfl
  | cons c cs ih =>
    rw [insDescRun, ih, c.run_apply]
    simp only [lastWrite_cons, getD_or]
    split
    · rw [c.write_eq]
    · rfl
/-! ### The default action across histories -/

/-- Every entry's default action is one the API accepts. -/
def DflactValid (tbl : InsDescTable Op H) : Prop :=
  ∀ k, (tbl k).dflact = insdflEnable ∨ (tbl k).dflact = insdflDisable

omit [DecidableEq Op] in
theorem dflactValid_reset : DflactValid (insDescReset : InsDescTable Op H) :=
  fun _ => .inl rfl

/-- Only `ins_set_dflact` writes `dflact`, and its `switch` admits only the two actions. -/
theorem InsCall.dflactValid_run {tbl : InsDescTable Op H} (h : DflactValid tbl)
    (c : InsCall Op H) : DflactValid (c.run tbl).2 := by
  cases hf : c.fails
  · obtain ⟨i, -, hr⟩ := c.run_of_not_fails hf tbl
    intro k
    rw [hr]
    by_cases hk : k = i
    · subst hk
      cases c with
      | setDflact d a =>
        simp only [fails, Bool.or_eq_false_iff, Bool.not_eq_false', Bool.or_eq_true,
          beq_iff_eq] at hf
        simpa [write] using hf.2
      | _ => simpa [write] using h k
    · simpa [Function.update_noteq hk] using h k
  · rw [c.run_of_fails hf]; exact h

/-- Every history of calls keeps each default action one of the two. -/
theorem dflactValid_insDescRun {tbl : InsDescTable Op H} (h : DflactValid tbl)
    (cs : List (InsCall Op H)) : DflactValid (insDescRun tbl cs) := by
  induction cs generalizing tbl with
  | nil => exact h
  | cons c cs ih => exact ih (c.dflactValid_run h)

/-! ### Registering then clearing a hook -/

/-- Setting then clearing the pre-hook of an entry leaves it without one, all else as
before. -/
theorem insClrPre_insSetPre (tbl : InsDescTable Op H) (k : Op) (h : H) :
    (insClrPre (insSetPre tbl (some k) (some h)).2 (some k)).2 =
      Function.update tbl k { tbl k with pre := none } := by
  simp [insClrPre, insSetPre, insDescWrite]

/-- The same for the post-hook. -/
theorem insClrPost_insSetPost (tbl : InsDescTable Op H) (k : Op) (h : H) :
    (insClrPost (insSetPost tbl (some k) (some h)).2 (some k)).2 =
      Function.update tbl k { tbl k with post := none } := by
  simp [insClrPost, insSetPost, insDescWrite]

/-- Setting then clearing the pre-hook of an entry puts back the table iff the entry had
no pre-hook: the table keeps no record of a hook the set call replaced. -/
theorem insClrPre_insSetPre_eq_iff (tbl : InsDescTable Op H) (k : Op) (h : H) :
    (insClrPre (insSetPre tbl (some k) (some h)).2 (some k)).2 = tbl ↔ (tbl k).pre = none := by
  rw [insClrPre_insSetPre, Function.update_eq_self_iff]
  cases tbl k; simp [eq_comm]

/-- The same for the post-hook. -/
theorem insClrPost_insSetPost_eq_iff (tbl : InsDescTable Op H) (k : Op) (h : H) :
    (insClrPost (insSetPost tbl (some k) (some h)).2 (some k)).2 = tbl ↔
      (tbl k).post = none := by
  rw [insClrPost_insSetPost, Function.update_eq_self_iff]
  cases tbl k; simp [eq_comm]

end Libdft
