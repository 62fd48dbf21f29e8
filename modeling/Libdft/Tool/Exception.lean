import Libdft.Base.Word

/-!
# The internal exception handler: `excpt_hdlr`

`src/libdft/src/libdft_api.c:395–450`. Pin calls it on a fault raised inside libdft's own
analysis code. A misaligned access, which the target's `EFLAGS.AC` turns into a fault, is
repaired by clearing that flag in the physical context; an access to the page of `null_seg`,
the guard region, ends the application; every other fault goes back to the application.
-/

namespace Libdft

/-- The fault codes `excpt_hdlr` tells apart (`PIN_GetExceptionCode`). -/
inductive ExceptCode
  | accessMisaligned
  | accessDenied
  | other (code : Nat)
  deriving DecidableEq, Repr

/-- `EXCEPT_HANDLING_RESULT`, and Pin's `PIN_ExitApplication`, which does not return. -/
inductive ExcptOutcome
  | ehrHandled
  | ehrUnhandled
  | exitApplication (status : Int)
  deriving DecidableEq, Repr

/-- Modelled from the spec: `CLEAR_EFLAGS_AC`, which clears the alignment-check bit, bit 18
of `EFLAGS` (line 401). -/
def clearEflagsAc (eflags : Addrint) : Addrint := eflags &&& ~~~(BitVec.twoPow 32 18)

/-- Modelled from the spec: `PAGE_ALIGN`, the start of the 4 KiB page holding `addr`. -/
def pageAlign (addr : Addrint) : Addrint := BitVec.ofNat 32 (addr.toNat / 4096 * 4096)

/-- `excpt_hdlr` (lines 412–450) on the fault `code`, the address Pin reports for it (`none`
when `PIN_GetFaultyAccessAddress` has none, so `vaddr` keeps its `0x0`), and `REG_EFLAGS` of
the physical context; `nullSeg` is `(ADDRINT)null_seg`. The outcome and the new `EFLAGS`. -/
def excptHdlr (nullSeg : Addrint) (code : ExceptCode) (faulty : Option Addrint)
    (eflags : Addrint) : ExcptOutcome × Addrint :=
  if code = .accessMisaligned then (.ehrHandled, clearEflagsAc eflags)
  else if code = .accessDenied then
    let vaddr := faulty.getD 0
    if pageAlign vaddr = nullSeg then (.exitApplication (-1), eflags)
    else (.ehrUnhandled, eflags)
  else (.ehrUnhandled, eflags)

end Libdft
