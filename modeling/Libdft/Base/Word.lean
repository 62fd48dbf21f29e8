import Mathlib.Logic.Function.Basic
import Mathlib.Data.Nat.Bitwise

/-!
# Machine words, the tag store and faults

Support for `src/libdft/src/libdft_api.c`, a Pin tool for IA-32: `ADDRINT` and `size_t`
are 32-bit words and `int` narrowing is two's complement. The tag store of `tagmap.h` is
not under src/; only `tagmap_clrn`, the one tag-store call of the file (line 305), is
modelled, from the spec's "clear N tag-bytes starting at a given address".
Undefined behaviour of C is made explicit as a `Fault`.
-/

namespace Libdft

/-- `ADDRINT`: a machine word of the IA-32 target. -/
abbrev Addrint := BitVec 32

/-- A word below `2 ^ 31` keeps its value when narrowed to `int`. -/
theorem toInt_of_lt (w : Addrint) (h : w.toNat < 2 ^ 31) : w.toInt = w.toNat := by
  rw [BitVec.toInt_eq_toNat_cond]
  simp only [ite_eq_left_iff, not_lt]
  omega

/-- Shadow memory: one taint tag per byte address, `true` when the byte is tainted. In the
pointwise order, `tm' ≤ tm` says that `tm'` taints no byte that `tm` leaves clean. -/
abbrev Tagmap := Nat → Bool

/-- Modelled from the spec: `tagmap_clrn(addr, num)` of `tagmap.h`, which is not under
src/, clears the `num` tags starting at `addr`. -/
def tagmapClrn (tm : Tagmap) (addr : Addrint) (num : Nat) : Tagmap :=
  fun a => if addr.toNat ≤ a ∧ a < addr.toNat + num then false else tm a

@[simp] theorem tagmapClrn_apply (tm : Tagmap) (addr : Addrint) (num a : Nat) :
    tagmapClrn tm addr num a =
      if addr.toNat ≤ a ∧ a < addr.toNat + num then false else tm a := rfl

/-- `tagmap_clrn` only clears: it taints no byte. -/
theorem tagmapClrn_le (tm : Tagmap) (addr : Addrint) (num : Nat) : tagmapClrn tm addr num ≤ tm :=
  fun a => by
    rw [tagmapClrn_apply]
    split
    · exact Bool.false_le _
    · exact le_rfl

/-- Undefined behaviour that the modelled C code can reach, made an explicit outcome. -/
inductive Fault where
  /-- Dereference of a NULL `thread_ctx_t *`. -/
  | nullDeref
  /-- Dereference of a pointer whose block has been freed. -/
  | useAfterFree
  /-- `free` of a pointer that names no live block (a double free). -/
  | invalidFree
  /-- `syscall_desc[nr]` past the end of the descriptor table. -/
  | descOutOfBounds
  /-- `map_args[i]` or `arg[i]` past the end of its six-slot array. -/
  | argOutOfBounds
  deriving DecidableEq, Repr

end Libdft
