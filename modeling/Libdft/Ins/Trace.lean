import Libdft.Ins.Desc
import Mathlib.Data.List.Basic

/-!
# Trace instrumentation: `trace_inspect`

`src/libdft/src/libdft_api.c:321–360`. Pin hands each new trace to `trace_inspect`, which walks
its basic blocks and, within each, its instructions in program order. For each instruction it
reads the entry of the instruction's opcode class and calls the pre-hook, then the default
analysis `ins_inspect`, then the post-hook. What these insert into the code is their own
business; the model records which of them `trace_inspect` calls, on which instruction, in
which order. The hooks do not write `ins_desc` (spec §9: registration never runs concurrently
with trace inspection).
-/

namespace Libdft

/-- A call `trace_inspect` makes on an instruction. -/
inductive Issue (H Ins : Type) where
  | pre (h : H) (ins : Ins)
  | insInspect (ins : Ins)
  | post (h : H) (ins : Ins)
  deriving DecidableEq, Repr

namespace Issue

variable {H Ins : Type}

/-- The instruction a call is made on. -/
def ins : Issue H Ins → Ins
  | pre _ i | insInspect i | post _ i => i

/-- Whether the call is a pre-hook. -/
def isPre : Issue H Ins → Bool
  | pre _ _ => true
  | _ => false

/-- Whether the call is the default analysis. -/
def isInsInspect : Issue H Ins → Bool
  | insInspect _ => true
  | _ => false

/-- Whether the call is a post-hook. -/
def isPost : Issue H Ins → Bool
  | post _ _ => true
  | _ => false

end Issue

/-- A Pin `TRACE`: its basic blocks, each the list of its instructions in program order. -/
abbrev Trace (Ins : Type) := List (List Ins)

variable {Op H Ins : Type} (opcode : Ins → Op)

/-! ### The two loops -/

/-- The body of the inner loop (lines 339–357): the calls made on `ins`, after `acc`. The
entry `ins_desc[ins_indx]` is read once; the code reads it again at lines 344, 350 and 356,
which sees the same entry because the hooks do not re-register. -/
def traceInspectIns (tbl : InsDescTable Op H) (acc : List (Issue H Ins)) (ins : Ins) :
    List (Issue H Ins) :=
  let insIndx := opcode ins
  let acc := match (tbl insIndx).pre with
    | some f => acc ++ [.pre f ins]
    | none => acc
  let acc := if (tbl insIndx).dflact = insdflEnable then acc ++ [.insInspect ins] else acc
  match (tbl insIndx).post with
  | some f => acc ++ [.post f ins]
  | none => acc

/-- The inner loop (lines 332–358) over one basic block. -/
def bblInspect (tbl : InsDescTable Op H) (acc : List (Issue H Ins)) :
    List Ins → List (Issue H Ins)
  | [] => acc
  | ins :: rest => bblInspect tbl (traceInspectIns opcode tbl acc ins) rest

/-- `trace_inspect` (lines 321–360): the outer loop over the basic blocks; `acc` is what was
issued before. -/
def traceInspect (tbl : InsDescTable Op H) (acc : List (Issue H Ins)) :
    Trace Ins → List (Issue H Ins)
  | [] => acc
  | bbl :: rest => traceInspect tbl (bblInspect opcode tbl acc bbl) rest

/-! ### The spec's three-stage dispatch -/

/-- The spec's dispatch of one instruction under entry `d`: the pre-hook if registered, the
built-in analysis if the default action is enabled, the post-hook if registered. -/
def dispatch (d : InsDesc H) (ins : Ins) : List (Issue H Ins) :=
  d.pre.toList.map (Issue.pre · ins) ++
    (if d.dflact = insdflEnable then [.insInspect ins] else []) ++
    d.post.toList.map (Issue.post · ins)

/-- Every call of the dispatch of `ins` is made on `ins`. -/
theorem ins_of_mem_dispatch {d : InsDesc H} {ins : Ins} {e : Issue H Ins}
    (h : e ∈ dispatch d ins) : e.ins = ins := by
  simp only [dispatch, List.mem_append, List.mem_map, Option.mem_toList] at h
  rcases h with (⟨_, -, rfl⟩ | h) | ⟨_, -, rfl⟩
  · rfl
  · split at h <;> simp_all [Issue.ins]
  · rfl

/-- The loop body issues the spec's dispatch of the instruction after what came before. -/
theorem traceInspectIns_eq (tbl : InsDescTable Op H) (acc : List (Issue H Ins)) (ins : Ins) :
    traceInspectIns opcode tbl acc ins = acc ++ dispatch (tbl (opcode ins)) ins := by
  simp only [traceInspectIns, dispatch]
  obtain ⟨pre, post, dflact⟩ := tbl (opcode ins)
  cases pre <;> cases post <;> by_cases h : dflact = insdflEnable <;> simp [h]

/-- The inner loop issues the dispatches of the block's instructions in program order. -/
theorem bblInspect_eq (tbl : InsDescTable Op H) (acc : List (Issue H Ins)) (bbl : List Ins) :
    bblInspect opcode tbl acc bbl =
      acc ++ bbl.flatMap fun ins => dispatch (tbl (opcode ins)) ins := by
  induction bbl generalizing acc with
  | nil => simp [bblInspect]
  | cons ins rest ih => simp [bblInspect, ih, traceInspectIns_eq]

/-- `trace_inspect` visits the blocks in order, the instructions of each in program order, and
issues the spec's dispatch for each instruction and nothing else. -/
theorem traceInspect_eq (tbl : InsDescTable Op H) (acc : List (Issue H Ins)) (tr : Trace Ins) :
    traceInspect opcode tbl acc tr =
      acc ++ tr.flatten.flatMap fun ins => dispatch (tbl (opcode ins)) ins := by
  induction tr generalizing acc with
  | nil => simp [traceInspect]
  | cons bbl rest ih => simp [traceInspect, ih, bblInspect_eq]

/-- Class `0` holds a pre-hook `7`; class `1` has its default action disabled. -/
example : traceInspect id
    (fun i : Fin 2 => if i = 0 then ⟨some 7, none, insdflEnable⟩ else ⟨none, none, insdflDisable⟩)
    [] [[0, 1], [0]] =
      [.pre 7 0, .insInspect 0, .pre 7 0, .insInspect (0 : Fin 2)] := by
  decide

/-! ### What one entry governs -/

variable [DecidableEq Op]

/-- Filtering by the instruction keeps an instruction's dispatch whole or drops it whole. -/
private theorem dispatch_filter_ins (d : InsDesc H) (ins : Ins) (p : Ins → Bool) :
    (dispatch d ins).filter (fun e => p e.ins) = if p ins then dispatch d ins else [] := by
  split
  · exact List.filter_eq_self.mpr fun e he => by rwa [ins_of_mem_dispatch he]
  · exact List.filter_eq_nil_iff.mpr fun e he => by rwa [ins_of_mem_dispatch he]

/-- Two tables that differ only at class `k` issue the same calls on every instruction of
another class. -/
theorem traceInspect_filter_congr {tbl tbl' : InsDescTable Op H} {k : Op}
    (h : ∀ j, j ≠ k → tbl j = tbl' j) (tr : Trace Ins) :
    (traceInspect opcode tbl [] tr).filter (fun e => opcode e.ins != k) =
      (traceInspect opcode tbl' [] tr).filter (fun e => opcode e.ins != k) := by
  simp only [traceInspect_eq, List.nil_append, List.filter_flatMap]
  refine List.flatMap_congr fun ins _ => ?_
  rw [dispatch_filter_ins _ _ (fun i => opcode i != k),
    dispatch_filter_ins _ _ (fun i => opcode i != k)]
  split
  · next hk => rw [h _ (by simpa using hk)]
  · rfl

/-- Replacing the entry of class `k` by one whose dispatch drops the calls `drop` marks
removes exactly those calls on the instructions of class `k`, and nothing else. -/
private theorem traceInspect_update (tbl : InsDescTable Op H) (k : Op) (d : InsDesc H)
    (drop : Issue H Ins → Bool)
    (hd : ∀ ins, dispatch d ins = (dispatch (tbl k) ins).filter fun e => !drop e)
    (tr : Trace Ins) :
    traceInspect opcode (Function.update tbl k d) [] tr =
      (traceInspect opcode tbl [] tr).filter (fun e => !(drop e && opcode e.ins == k)) := by
  simp only [traceInspect_eq, List.nil_append, List.filter_flatMap]
  refine List.flatMap_congr fun ins _ => ?_
  by_cases hk : opcode ins = k
  · rw [hk, Function.update_same, hd]
    exact List.filter_congr fun e he => by simp [ins_of_mem_dispatch he, hk]
  · rw [Function.update_noteq hk, eq_comm, List.filter_eq_self]
    intro e he
    simp [ins_of_mem_dispatch he, hk]

private theorem dispatch_disable (d : InsDesc H) (ins : Ins) :
    dispatch { d with dflact := insdflDisable } ins =
      (dispatch d ins).filter fun e => !e.isInsInspect := by
  obtain ⟨pre, post, a⟩ := d
  cases pre <;> cases post <;> by_cases h : a = insdflEnable <;>
    simp [dispatch, h, Issue.isInsInspect, Issue.isPre, Issue.isPost, insdflDisable, insdflEnable]

private theorem dispatch_clearPre (d : InsDesc H) (ins : Ins) :
    dispatch { d with pre := none } ins = (dispatch d ins).filter fun e => !e.isPre := by
  obtain ⟨pre, post, a⟩ := d
  cases pre <;> cases post <;> by_cases h : a = insdflEnable <;>
    simp [dispatch, h, Issue.isInsInspect, Issue.isPre, Issue.isPost]

private theorem dispatch_clearPost (d : InsDesc H) (ins : Ins) :
    dispatch { d with post := none } ins = (dispatch d ins).filter fun e => !e.isPost := by
  obtain ⟨pre, post, a⟩ := d
  cases pre <;> cases post <;> by_cases h : a = insdflEnable <;>
    simp [dispatch, h, Issue.isInsInspect, Issue.isPre, Issue.isPost]

/-- Disabling the default action of class `k` drops exactly the built-in analysis of the
instructions of class `k`; every hook call stays, in its place. -/
theorem traceInspect_insSetDflact_disable (tbl : InsDescTable Op H) (k : Op) (tr : Trace Ins) :
    traceInspect opcode (insSetDflact tbl (some k) insdflDisable).2 [] tr =
      (traceInspect opcode tbl [] tr).filter
        (fun e => !(e.isInsInspect && opcode e.ins == k)) := by
  have : (insSetDflact tbl (some k) insdflDisable).2 =
      Function.update tbl k { tbl k with dflact := insdflDisable } := by
    simp [insSetDflact, insdflDisable]
  rw [this]
  exact traceInspect_update opcode tbl k _ _ (dispatch_disable _) tr

/-- Registering then clearing a hook on class `k` drops exactly that hook's calls on the
instructions of class `k`: it restores what `trace_inspect` issues only where the entry held
no such hook before. -/
theorem traceInspect_set_then_clear (tbl : InsDescTable Op H) (k : Op) (h : H)
    (tr : Trace Ins) :
    traceInspect opcode (insClrPre (insSetPre tbl (some k) (some h)).2 (some k)).2 [] tr =
      (traceInspect opcode tbl [] tr).filter (fun e => !(e.isPre && opcode e.ins == k)) ∧
    traceInspect opcode (insClrPost (insSetPost tbl (some k) (some h)).2 (some k)).2 [] tr =
      (traceInspect opcode tbl [] tr).filter (fun e => !(e.isPost && opcode e.ins == k)) := by
  rw [insClrPre_insSetPre, insClrPost_insSetPost]
  exact ⟨traceInspect_update opcode tbl k _ _ (dispatch_clearPre _) tr,
    traceInspect_update opcode tbl k _ _ (dispatch_clearPost _) tr⟩

/-! ### The dispatch contract -/

/-- What the registration calls and `trace_inspect` promise together. -/
structure DispatchContract (opcode : Ins → Op) (H : Type) : Prop where
  /-- A call returns `1` exactly on the spec's bad arguments, and then leaves the whole table. -/
  fails : ∀ (c : InsCall Op H) tbl, ((c.run tbl).1 = 1 ↔ c.fails) ∧
    (c.fails → (c.run tbl).2 = tbl)
  /-- Any other call returns `0` and writes its one field of the one entry it names. -/
  writes : ∀ (c : InsCall Op H) tbl, c.fails = false →
    ∃ i, c.desc = some i ∧ c.run tbl = (0, Function.update tbl i (c.write (tbl i)))
  /-- From the table `libdft_init` resets, every history of calls leaves each default action
  enabled or disabled. -/
  history : ∀ (cs : List (InsCall Op H)) k,
    (insDescRun insDescReset cs k).dflact = insdflEnable ∨
      (insDescRun insDescReset cs k).dflact = insdflDisable
  /-- `trace_inspect` issues, block by block and instruction by instruction, the three-stage
  dispatch of each instruction's class, and nothing else. -/
  trace : ∀ (tbl : InsDescTable Op H) tr,
    traceInspect opcode tbl [] tr = tr.flatten.flatMap fun ins => dispatch (tbl (opcode ins)) ins
  /-- Changing one class's entry changes only the calls on instructions of that class. -/
  independent : ∀ (tbl tbl' : InsDescTable Op H) k, (∀ j, j ≠ k → tbl j = tbl' j) → ∀ tr,
    (traceInspect opcode tbl [] tr).filter (fun e => opcode e.ins != k) =
      (traceInspect opcode tbl' [] tr).filter (fun e => opcode e.ins != k)
  /-- Disabling a class's default action drops its built-in analysis and keeps every hook. -/
  disable : ∀ (tbl : InsDescTable Op H) k tr,
    traceInspect opcode (insSetDflact tbl (some k) insdflDisable).2 [] tr =
      (traceInspect opcode tbl [] tr).filter (fun e => !(e.isInsInspect && opcode e.ins == k))
  /-- Registering then clearing a hook restores the table exactly when the entry held no hook
  of that kind before. -/
  restore : ∀ (tbl : InsDescTable Op H) k (h : H),
    ((insClrPre (insSetPre tbl (some k) (some h)).2 (some k)).2 = tbl ↔ (tbl k).pre = none) ∧
    ((insClrPost (insSetPost tbl (some k) (some h)).2 (some k)).2 = tbl ↔ (tbl k).post = none)

/-- The registration API and `trace_inspect` meet the dispatch contract, for every opcode
decoder, every history of calls and every trace. -/
theorem ins_dispatch_contract (opcode : Ins → Op) (H : Type) : DispatchContract opcode H where
  fails c tbl := ⟨c.run_fst_eq_one_iff tbl, fun h => by rw [c.run_of_fails h]⟩
  writes _ tbl h := InsCall.run_of_not_fails h tbl
  history cs := dflactValid_insDescRun dflactValid_reset cs
  trace tbl tr := traceInspect_eq opcode tbl [] tr
  independent _ _ _ h tr := traceInspect_filter_congr opcode h tr
  disable tbl k tr := traceInspect_insSetDflact_disable opcode tbl k tr
  restore tbl k h := ⟨insClrPre_insSetPre_eq_iff tbl k h, insClrPost_insSetPost_eq_iff tbl k h⟩

end Libdft
