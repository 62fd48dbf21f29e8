import Libdft.Base.Word

/-!
# Syscall contexts and syscall descriptors

`syscall_ctx_t` and `thread_ctx_t` (`libdft_api.h`) and `syscall_desc_t` (`syscall_desc.h`)
are declared outside src/. Their fields here are the ones that
`src/libdft/src/libdft_api.c:134–309` reads and writes, with the spec's §3 types. The
VCPU of `thread_ctx_t` is left out: no function of the file touches it.
-/

namespace Libdft

/-- `arg[SYSCALL_ARG_NUM]`: the six argument slots of a syscall context. -/
abbrev Args := Fin 6 → Addrint

/-- `syscall_ctx_t`: the in-flight syscall record of one thread. -/
structure SyscallCtx where
  /-- Syscall number; `-1` tells `sysexit_save` the syscall was unknown. -/
  nr : Int
  arg : Args
  /-- The return word, as `PIN_GetSyscallReturn` reports it. -/
  ret : Addrint
  /-- The `CONTEXT *` of the last notification, an opaque pointer. -/
  aux : Nat

/-- `thread_ctx_t`, as far as src/ uses it. -/
structure ThreadCtx where
  syscallCtx : SyscallCtx

/-- The zero-filled thread context that `calloc` returns (line 88). -/
def ThreadCtx.zero : ThreadCtx := ⟨⟨0, fun _ => 0, 0, 0⟩⟩

/-- A syscall pre/post callback. It is handed `&thread_ctx->syscall_ctx` and may read and
write the shared tag store; it reaches no other thread state. -/
abbrev SyscallCallback := SyscallCtx → Tagmap → SyscallCtx × Tagmap

/-- `syscall_desc_t`: what the core reads of one syscall's descriptor. -/
structure SyscallDesc where
  nargs : Nat
  saveArgs : Nat
  retvalArgs : Nat
  /-- Bytes each argument's buffer receives from the kernel (`map_args`). -/
  mapArgs : Fin 6 → Nat
  pre : Option SyscallCallback
  post : Option SyscallCallback

/-- `syscall_desc[SYSCALL_MAX]`, the external descriptor table. A C array has at least one
element, and this one, of descriptors wider than one byte, fits the 32-bit address space,
so `SYSCALL_MAX` is positive and at most `2 ^ 31`. -/
structure SyscallDescTable where
  syscallMax : Nat
  syscallMax_pos : 0 < syscallMax
  syscallMax_le : syscallMax ≤ 2 ^ 31
  desc : Fin syscallMax → SyscallDesc

namespace SyscallDescTable

/-- `syscall_desc[n]`, or `none` past the end of the array. -/
def lookup (T : SyscallDescTable) (n : Nat) : Option SyscallDesc :=
  if h : n < T.syscallMax then some (T.desc ⟨n, h⟩) else none

theorem lookup_of_lt (T : SyscallDescTable) {n : Nat} (h : n < T.syscallMax) :
    T.lookup n = some (T.desc ⟨n, h⟩) := by
  simp [lookup, h]

theorem lookup_eq_some_iff (T : SyscallDescTable) (n : Nat) (d : SyscallDesc) :
    T.lookup n = some d ↔ ∃ h : n < T.syscallMax, T.desc ⟨n, h⟩ = d := by
  unfold lookup
  split <;> simp_all

/-- A descriptor found in the table belongs to a number below `SYSCALL_MAX`. -/
theorem lt_of_lookup_eq_some {T : SyscallDescTable} {n : Nat} {d : SyscallDesc}
    (hd : T.lookup n = some d) : n < T.syscallMax :=
  ((T.lookup_eq_some_iff n d).mp hd).1

theorem lookup_eq_none_iff (T : SyscallDescTable) (n : Nat) :
    T.lookup n = none ↔ T.syscallMax ≤ n := by
  unfold lookup
  split <;> simp_all

/-- Callbacks never write the syscall number they are handed. -/
def KeepsNr (T : SyscallDescTable) : Prop :=
  ∀ i, (∀ f ∈ (T.desc i).pre, ∀ c tm, (f c tm).1.nr = c.nr) ∧
    (∀ f ∈ (T.desc i).post, ∀ c tm, (f c tm).1.nr = c.nr)

/-- Callbacks blind to the tag store: each registered callback leaves the tags as they are,
and what it does to the syscall context does not depend on them. -/
def TagBlind (T : SyscallDescTable) : Prop :=
  ∀ i, (∀ f ∈ (T.desc i).pre, ∀ c tm tm', f c tm = ((f c tm').1, tm)) ∧
    (∀ f ∈ (T.desc i).post, ∀ c tm tm', f c tm = ((f c tm').1, tm))

/-- Callbacks set no tag: each registered callback keeps or clears every tag it is handed. -/
def SetsNoTag (T : SyscallDescTable) : Prop :=
  ∀ i, (∀ f ∈ (T.desc i).pre, ∀ c tm, (f c tm).2 ≤ tm) ∧
    (∀ f ∈ (T.desc i).post, ∀ c tm, (f c tm).2 ≤ tm)

end SyscallDescTable

end Libdft
