import Mathlib.Logic.Function.Basic
import Mathlib.Data.List.Nodup

/-!
# The REG-to-VCPU maps

`src/libdft/src/libdft_api.c:638–826`: `REG32_INDX`, `REG16_INDX` and `REG8_INDX` give the slot
of a Pin register in the thread's VCPU. Each is a `switch` whose cases send the named registers
of its width to the slot of their 32-bit container, and whose `default` asserts
`reg < REG_LAST` and returns the overflow slot `GRP_NUM + reg`. The ordinals of Pin's `REG`
enumeration are Pin's, so the model takes them as a record; distinct registers are distinct
enumerators, which also keeps each `switch`'s case labels distinct, as C requires.
-/

namespace Libdft

/-- Modelled from the spec: `GRP_NUM` (`libdft_api.h`), the eight canonical 32-bit registers
of the VCPU. -/
def grpNum : Nat := 8

/-- The registers the three `switch`es name. -/
inductive RegName
  | edi | esi | ebp | esp | ebx | edx | ecx | eax
  | di | si | bp | sp | bx | dx | cx | ax
  | ah | al | ch | cl | dh | dl | bh | bl
  deriving DecidableEq, Repr

/-- Modelled from the spec: the 32-bit register a named register is part of (x86: `AX`, `AH`
and `AL` of `EAX`). -/
def RegName.container : RegName → RegName
  | .edi | .di => .edi
  | .esi | .si => .esi
  | .ebp | .bp => .ebp
  | .esp | .sp => .esp
  | .ebx | .bx | .bh | .bl => .ebx
  | .edx | .dx | .dh | .dl => .edx
  | .ecx | .cx | .ch | .cl => .ecx
  | .eax | .ax | .ah | .al => .eax

/-- Pin's `REG` enumeration as the maps read it: the ordinal of each named register, and
`REG_LAST`. -/
structure PinRegs where
  regLast : Nat
  ord : RegName → Nat
  ord_lt : ∀ r, ord r < regLast
  ord_injective : Function.Injective ord

/-- The cases of `REG32_INDX` (lines 653–693). -/
def reg32Cases : List (RegName × Nat) :=
  [(.edi, 0), (.esi, 1), (.ebp, 2), (.esp, 3), (.ebx, 4), (.edx, 5), (.ecx, 6), (.eax, 7)]

/-- The cases of `REG16_INDX` (lines 722–762). -/
def reg16Cases : List (RegName × Nat) :=
  [(.di, 0), (.si, 1), (.bp, 2), (.sp, 3), (.bx, 4), (.dx, 5), (.cx, 6), (.ax, 7)]

/-- The cases of `REG8_INDX` (lines 791–815): only four registers have byte halves. -/
def reg8Cases : List (RegName × Nat) :=
  [(.ah, 7), (.al, 7), (.ch, 6), (.cl, 6), (.dh, 5), (.dl, 5), (.bh, 4), (.bl, 4)]

/-- The three `switch` tables. -/
def regTables : List (List (RegName × Nat)) := [reg32Cases, reg16Cases, reg8Cases]

variable (R : PinRegs)

/-- The shape of the three maps: the `switch` over the registers of `cases`, then `default`,
whose `assert(reg < REG_LAST)` fails as `none`. -/
def regIndx (cases : List (RegName × Nat)) (reg : Nat) : Option Nat :=
  match cases.find? (fun c => R.ord c.1 == reg) with
  | some c => some c.2
  | none => if reg < R.regLast then some (grpNum + reg) else none

/-- `REG32_INDX` (lines 646–704). -/
def reg32Indx : Nat → Option Nat := regIndx R reg32Cases

/-- `REG16_INDX` (lines 714–773). -/
def reg16Indx : Nat → Option Nat := regIndx R reg16Cases

/-- `REG8_INDX` (lines 783–826). -/
def reg8Indx : Nat → Option Nat := regIndx R reg8Cases

/-! ### The shape -/

variable {R} {cases : List (RegName × Nat)}

/-- A named register of the table gets its case's slot. -/
theorem regIndx_ord (hc : (cases.map Prod.fst).Nodup) {p : RegName × Nat} (hp : p ∈ cases) :
    regIndx R cases (R.ord p.1) = some p.2 := by
  unfold regIndx
  cases hf : cases.find? (fun c => R.ord c.1 == R.ord p.1) with
  | none => exact absurd (List.find?_eq_none.mp hf p hp) (by simp)
  | some c =>
    have hq : c.1 = p.1 := R.ord_injective (by simpa using List.find?_some hf)
    rw [List.inj_on_of_nodup_map hc (List.mem_of_find?_eq_some hf) hp hq]

/-- A register no case names gets the overflow slot, or fails the assertion. -/
theorem regIndx_of_not_label {reg : Nat} (h : ∀ p ∈ cases, R.ord p.1 ≠ reg) :
    regIndx R cases reg = if reg < R.regLast then some (grpNum + reg) else none := by
  rw [regIndx, List.find?_eq_none.mpr (by simpa using h)]

/-- A register past `REG_LAST` fails the assertion. -/
theorem regIndx_of_le {reg : Nat} (h : R.regLast ≤ reg) : regIndx R cases reg = none := by
  rw [regIndx_of_not_label fun p _ he => by have := R.ord_lt p.1; omega, if_neg (by omega)]

/-- Below `REG_LAST` the assertion holds, so every register gets a slot. -/
theorem regIndx_isSome {reg : Nat} (h : reg < R.regLast) : (regIndx R cases reg).isSome := by
  unfold regIndx
  split
  · rfl
  · rw [if_pos h]; rfl

/-- Every slot a map returns is below `GRP_NUM + REG_LAST`, when the case slots are
canonical. -/
theorem regIndx_lt (hs : ∀ p ∈ cases, p.2 < grpNum) {reg i : Nat}
    (h : regIndx R cases reg = some i) : i < grpNum + R.regLast := by
  unfold regIndx at h
  split at h
  · next c hf => cases h; have := hs c (List.mem_of_find?_eq_some hf); omega
  · split at h <;> cases h; omega

/-- An overflow slot is hit by its own register only. -/
theorem regIndx_eq_overflow (hs : ∀ p ∈ cases, p.2 < grpNum) {reg reg' : Nat}
    (h : regIndx R cases reg' = some (grpNum + reg)) : reg' = reg := by
  unfold regIndx at h
  split at h
  · next c hf => have := hs c (List.mem_of_find?_eq_some hf); have := Option.some.inj h; omega
  · split at h
    · have := Option.some.inj h; omega
    · cases h

/-! ### The three maps -/

/-- What the maps promise: the canonical slots, aliasing, totality with bounds, and overflow
slots that collide with nothing. -/
structure VcpuIndexMap (R : PinRegs) : Prop where
  /-- The eight 32-bit registers get the slots `0`–`7`. -/
  canonical : reg32Cases.map (fun p => reg32Indx R (R.ord p.1)) = (List.range grpNum).map some
  /-- Every named register gets the slot of its 32-bit container. -/
  subRegs : ∀ cases ∈ regTables, ∀ p ∈ cases,
    regIndx R cases (R.ord p.1) = reg32Indx R (R.ord p.1.container)
  /-- Every register below `REG_LAST` gets a slot inside the VCPU. -/
  total : ∀ cases ∈ regTables, ∀ reg < R.regLast,
    ∃ i, regIndx R cases reg = some i ∧ i < grpNum + R.regLast
  /-- A register no case names gets `GRP_NUM + reg`, which no other register gets. -/
  overflow : ∀ cases ∈ regTables, ∀ reg < R.regLast, (∀ p ∈ cases, R.ord p.1 ≠ reg) →
    regIndx R cases reg = some (grpNum + reg) ∧
      ∀ reg', regIndx R cases reg' = some (grpNum + reg) → reg' = reg
  /-- A register past `REG_LAST` fails the assertion. -/
  pastLast : ∀ cases ∈ regTables, ∀ reg, R.regLast ≤ reg → regIndx R cases reg = none

private theorem regTables_nodup : ∀ cases ∈ regTables, (cases.map Prod.fst).Nodup := by decide

private theorem regTables_slot_lt : ∀ cases ∈ regTables, ∀ p ∈ cases, p.2 < grpNum := by decide

private theorem regTables_container :
    ∀ cases ∈ regTables, ∀ p ∈ cases, (p.1.container, p.2) ∈ reg32Cases := by decide

/-- The three maps keep their promises for every numbering of Pin's registers. -/
theorem vcpu_index_map (R : PinRegs) : VcpuIndexMap R where
  canonical := by
    unfold reg32Indx
    rw [List.map_congr_left fun p hp => regIndx_ord (regTables_nodup _ (by decide)) hp]
    rfl
  subRegs cases hc p hp := by
    rw [regIndx_ord (regTables_nodup _ hc) hp, reg32Indx,
      regIndx_ord (regTables_nodup _ (by decide)) (regTables_container _ hc p hp)]
  total cases hc reg hr := by
    have hs : (regIndx R cases reg).isSome := regIndx_isSome hr
    obtain ⟨i, hi⟩ := Option.isSome_iff_exists.mp hs
    exact ⟨i, hi, regIndx_lt (regTables_slot_lt _ hc) hi⟩
  overflow cases hc reg hr hn :=
    ⟨by rw [regIndx_of_not_label hn, if_pos hr], fun _ h =>
      regIndx_eq_overflow (regTables_slot_lt _ hc) h⟩
  pastLast _ _ _ h := regIndx_of_le h

end Libdft
